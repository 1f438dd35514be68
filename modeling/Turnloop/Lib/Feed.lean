import Mathlib.Tactic

/-! Machines that read a stream which arrives in pieces. -/

namespace Turnloop.Lib

/-- A step takes some input, may show something and goes on, or fails. `more` tells if another step is made before
the machine waits for input. -/
structure Stepper (σ α ε : Type) where
  step : σ → List α → Option (ℕ × Option ε × σ)
  more : ℕ → Option ε → σ → Bool
  cost : σ → List α → ℕ
  cost_lt : ∀ {s x n e s'}, step s x = some (n, e, s') → more n e s' = true → cost s' (x.drop n) < cost s x

inductive Stand (σ α : Type) where
  | failed (s : σ) (x : List α)
  | waiting (s : σ) (x : List α)

namespace Stand

variable {σ α : Type}

def outcome : Stand σ α → Option (σ × List α)
  | failed _ _ => none
  | waiting s x => some (s, x)

end Stand

namespace Stepper

variable {σ α ε τ : Type} (M : Stepper σ α ε)

def run (s : σ) (x : List α) : List ε × Stand σ α :=
  match h : M.step s x with
  | none => ([], .failed s x)
  | some (n, e, s') =>
    if hmore : M.more n e s' then
      have := M.cost_lt h hmore
      (e.toList ++ (run s' (x.drop n)).1, (run s' (x.drop n)).2)
    else (e.toList, .waiting s' (x.drop n))
termination_by M.cost s x

def feed : Stand σ α → List α → List ε × Stand σ α
  | .failed s x, _ => ([], .failed s x)
  | .waiting s x, piece => M.run s (x ++ piece)

def feedAll (t : Stand σ α) : List (List α) → List ε × Stand σ α
  | [] => ([], t)
  | piece :: pieces =>
    ((M.feed t piece).1 ++ (feedAll (M.feed t piece).2 pieces).1, (feedAll (M.feed t piece).2 pieces).2)

/-- `good` states, what an event says, and the inputs that fail only because the rest is missing. -/
structure Splits (good : σ → Prop) (content : ε → List τ) (torn : σ → List α → List α → Prop) : Prop where
  good_step : ∀ {s x n e s'}, good s → M.step s x = some (n, e, s') → good s'
  idle : ∀ {s x n e s'}, M.step s x = some (n, e, s') → M.more n e s' = false → n = 0 ∧ e = none ∧ s' = s
  late : ∀ {s x y n e s'}, M.step s x = some (0, none, s) → M.more 0 none s = false →
    M.step s (x ++ y) = some (n, e, s') →
    M.more n e s' = true → x.length < n
  stops : ∀ {s x y}, torn s x y → M.step s x = none
  fails : ∀ {s x y}, good s → M.step s x = none → M.step s (x ++ y) = none ∨ torn s x y
  takes : ∀ {s x n e s'}, good s → M.step s x = some (n, e, s') → M.more n e s' = true →
    n ≤ x.length ∧ ∀ y ≠ [], M.step s (x ++ y) = some (n, e, s') ∨
      (n = x.length ∧ M.step s' [] = some (0, none, s') ∧ M.more 0 none s' = false ∧ (∀ u v, ¬ torn s' u v) ∧
        ∃ m f g s'', 0 < m ∧ M.step s' y = some (m, f, s'') ∧ M.more m f s'' = true ∧
          M.step s (x ++ y) = some (n + m, g, s'') ∧ M.more (n + m) g s'' = true ∧
          g.toList.flatMap content = e.toList.flatMap content ++ f.toList.flatMap content)

variable {M} {s s' : σ} {x y : List α} {n : ℕ} {e : Option ε} {t : Stand σ α}

lemma run_failed (h : M.step s x = none) : M.run s x = ([], .failed s x) := by
  rw [run]
  split
  · rfl
  · rename_i h'
    rw [h] at h'
    cases h'

lemma run_more (h : M.step s x = some (n, e, s')) (hm : M.more n e s' = true) :
    M.run s x = (e.toList ++ (M.run s' (x.drop n)).1, (M.run s' (x.drop n)).2) := by
  rw [run]
  split
  · rename_i h'
    rw [h] at h'
    cases h'
  · rename_i h'
    rw [h] at h'
    cases h'
    rw [dif_pos hm]

lemma run_idle (h : M.step s x = some (n, e, s')) (hm : M.more n e s' = false) :
    M.run s x = (e.toList, .waiting s' (x.drop n)) := by
  rw [run]
  split
  · rename_i h'
    rw [h] at h'
    cases h'
  · rename_i h'
    rw [h] at h'
    cases h'
    rw [dif_neg (by simp [hm])]

lemma run_rule {P : σ → List α → List ε × Stand σ α → Prop} (hf : ∀ s x, M.step s x = none → P s x ([], .failed s x))
    (hi : ∀ s x n e s', M.step s x = some (n, e, s') → M.more n e s' = false → P s x (e.toList, .waiting s' (x.drop n)))
    (he : ∀ s x n e s', M.step s x = some (n, e, s') → M.more n e s' = true → P s' (x.drop n) (M.run s' (x.drop n)) →
        P s x (e.toList ++ (M.run s' (x.drop n)).1, (M.run s' (x.drop n)).2)) (s : σ) (x : List α) :
    P s x (M.run s x) := by
  induction hcost : M.cost s x using Nat.strong_induction_on generalizing s x with
  | h c ih =>
    subst hcost
    match hp : M.step s x with
    | none =>
      rw [run_failed hp]
      exact hf s x hp
    | some (n, e, s') =>
      cases hm : M.more n e s' with
      | false =>
        rw [run_idle hp hm]
        exact hi s x n e s' hp hm
      | true =>
        rw [run_more hp hm]
        exact he s x n e s' hp hm (ih _ (M.cost_lt hp hm) s' (x.drop n) rfl)

lemma feedAll_append (t : Stand σ α) (pieces later : List (List α)) :
    M.feedAll t (pieces ++ later) = ((M.feedAll t pieces).1 ++ (M.feedAll (M.feedAll t pieces).2 later).1,
      (M.feedAll (M.feedAll t pieces).2 later).2) := by
  induction pieces generalizing t with
  | nil => rfl
  | cons piece pieces ih => simp only [List.cons_append, feedAll, ih, List.append_assoc]

lemma feedAll_failed (pieces : List (List α)) : M.feedAll (.failed s x) pieces = ([], .failed s x) := by
  induction pieces with
  | nil => rfl
  | cons piece pieces ih => simp only [feedAll, feed, ih, List.append_nil]

lemma run_events {P : ε → Prop} (h : ∀ {s x n e s'}, M.step s x = some (n, some e, s') → P e) (s : σ) (x : List α) :
    ∀ e ∈ (M.run s x).1, P e := by
  have ho : ∀ {s x n e s'}, M.step s x = some (n, e, s') → ∀ f ∈ e.toList, P f := by
    intro s x n e s' hp f hf
    obtain rfl := Option.mem_toList.mp hf
    exact h hp
  refine run_rule (P := fun _ _ r => ∀ e ∈ r.1, P e) ?_ ?_ ?_ s x
  · intro s x _ e he
    cases he
  · intro s x n e s' hp _
    exact ho hp
  · intro s x n e s' hp _ ih f hf
    rcases List.mem_append.mp hf with hf | hf
    · exact ho hp f hf
    · exact ih f hf

lemma feedAll_events {P : ε → Prop} (h : ∀ {s x n e s'}, M.step s x = some (n, some e, s') → P e) (t : Stand σ α)
    (pieces : List (List α)) : ∀ e ∈ (M.feedAll t pieces).1, P e := by
  induction pieces generalizing t with
  | nil =>
    intro e he
    cases he
  | cons piece pieces ih =>
    intro e he
    rcases List.mem_append.mp he with he | he
    · cases t with
      | failed => cases he
      | waiting s x => exact run_events h s (x ++ piece) e he
    · exact ih _ e he

section

variable {s'' : σ} {events later : List ε}

def Takes (M : Stepper σ α ε) (s : σ) (x : List α) (events : List ε) (s' : σ) : Prop :=
  ∀ rest, M.run s (x ++ rest) = (events ++ (M.run s' rest).1, (M.run s' rest).2)

lemma Takes.refl (s : σ) : M.Takes s [] [] s := fun _ => rfl

lemma Takes.trans (h : M.Takes s x events s') (h' : M.Takes s' y later s'') :
    M.Takes s (x ++ y) (events ++ later) s'' := by
  intro _
  rw [List.append_assoc, h, h', List.append_assoc]

lemma Takes.step (h : ∀ rest, M.step s (x ++ rest) = some (x.length, e, s')) (hm : M.more x.length e s' = true) :
    M.Takes s x e.toList s' := by
  intro rest
  rw [run_more (h rest) hm, List.drop_left]

lemma Takes.run (h : M.Takes s x events s') (hw : M.run s' [] = (later, t)) : M.run s x = (events ++ later, t) := by
  have ha := h []
  rwa [List.append_nil, hw] at ha

end

section

variable (content : ε → List τ)

def seen (r : List ε × Stand σ α) : List τ × Option (σ × List α) := (r.1.flatMap content, r.2.outcome)

def Tears (torn : σ → List α → List α → Prop) (t : Stand σ α) (y : List α) : Prop :=
  match t with
  | .failed s x => torn s x y
  | .waiting _ _ => False

variable {content} {good : σ → Prop} {torn : σ → List α → List α → Prop}

lemma run_good (hM : M.Splits good content torn) (h : good s) (hr : (M.run s x).2 = .waiting s' y) : good s' := by
  have ha : good s → ∀ s' y, (M.run s x).2 = .waiting s' y → good s' := by
    refine run_rule (P := fun s _ r => good s → ∀ s' y, r.2 = .waiting s' y → good s') ?_ ?_ ?_ s x
    · intro s x _ _ s' y h
      cases h
    · intro s x n e s' hp _ hg _ y h
      cases h
      exact hM.good_step hg hp
    · intro s x n e s' hp _ ih hg
      exact ih (hM.good_step hg hp)
  exact ha h s' y hr

lemma run_waiting (hM : M.Splits good content torn) (hr : (M.run s x).2 = .waiting s' y) :
    M.run s' y = ([], .waiting s' y) := by
  have ha : ∀ s' y, (M.run s x).2 = .waiting s' y → M.run s' y = ([], .waiting s' y) := by
    refine run_rule (P := fun _ _ r => ∀ s' y, r.2 = .waiting s' y → M.run s' y = ([], .waiting s' y)) ?_ ?_ ?_ s x
    · intro s x _ s' y h
      cases h
    · intro s x n e s' hp hi _ y h
      cases h
      obtain ⟨rfl, rfl, rfl⟩ := hM.idle hp hi
      exact run_idle hp hi
    · intro s x n e s' _ _ ih
      exact ih
  exact ha s' y hr

lemma run_append (hM : M.Splits good content torn) (ho : good s) (hy : y ≠ []) (hr : ¬ Tears torn (M.run s x).2 y) :
    seen content (M.run s (x ++ y)) =
      seen content ((M.run s x).1 ++ (M.feed (M.run s x).2 y).1, (M.feed (M.run s x).2 y).2) := by
  revert ho hr
  refine run_rule (P := fun s x r => good s → ¬ Tears torn r.2 y →
    seen content (M.run s (x ++ y)) = seen content (r.1 ++ (M.feed r.2 y).1, (M.feed r.2 y).2)) ?_ ?_ ?_ s x
  · intro s x hp ho hr
    rw [run_failed ((hM.fails ho hp).resolve_right hr)]
    rfl
  · intro s x n e s' hp hi _ _
    obtain ⟨rfl, rfl, rfl⟩ := hM.idle hp hi
    rfl
  · intro s x n e s' hp hm ih ho hr
    obtain ⟨hn, hy'⟩ := hM.takes ho hp hm
    have hg' := hM.good_step ho hp
    rcases hy' y hy with he | ⟨ha, hl, hw, -, m, f, g, _, -, hf, hb, hg, hk, hc⟩
    · have hq := congrArg (fun r => (e.toList.flatMap content ++ r.1, r.2)) (ih hg' hr)
      rw [run_more he hm, List.drop_append_of_le_length hn]
      simpa only [seen, List.flatMap_append, List.append_assoc] using hq
    · -- the step took a slice of all there was, and takes a longer one when there is more
      have hq : M.run s' (x.drop n) = ([], .waiting s' []) := by
        rw [ha, List.drop_length, run_idle hl hw]
        rfl
      have hd : (x ++ y).drop (n + m) = y.drop m := by rw [ha, List.drop_append]; simp
      rw [hq, run_more hg hk, hd]
      simp only [feed, List.nil_append, List.append_nil, seen, List.flatMap_append, hc, run_more hf hb,
        List.append_assoc]

/-- The machine comes to `t` with `y` unread, from `s` with all of `x` there. -/
inductive Visits (M : Stepper σ α ε) : σ → List α → σ → List α → Prop
  | here (s : σ) (x : List α) : Visits M s x s x
  | step {s s' t : σ} {x y : List α} {n : ℕ} {e : Option ε}
    (h : M.step s x = some (n, e, s')) (hm : M.more n e s' = true)
      (hv : Visits M s' (x.drop n) t y) : Visits M s x t y

section

variable {d : σ} {w z : List α}

lemma visits_failed (hM : M.Splits good content torn) (ho : good s) (hr : (M.run s x).2 = .failed d z) (hy : y ≠ []) :
    Visits M s (x ++ y) d (z ++ y) := by
  revert ho hr
  refine run_rule (P := fun s x r => good s → r.2 = .failed d z → Visits M s (x ++ y) d (z ++ y)) ?_ ?_ ?_ s x
  · intro s x _ _ hr
    cases hr
    exact .here _ _
  · intro s x n e s' _ _ _ hr
    cases hr
  · intro s x n e s' hp hm ih ho hr
    obtain ⟨hn, hy'⟩ := hM.takes ho hp hm
    rcases hy' y hy with he | ⟨ha, hl, hw, -⟩
    · refine .step he hm ?_
      rw [List.drop_append_of_le_length hn]
      exact ih (hM.good_step ho hp) hr
    · rw [ha, List.drop_length, run_idle hl hw] at hr
      cases hr

lemma visits_waiting (hM : M.Splits good content torn) (ho : good s) (hr : (M.run s x).2 = .waiting s' z) (hy : y ≠ [])
    (ht : torn d v w) (hv : Visits M s' (z ++ y) d u) : Visits M s (x ++ y) d u := by
  revert ho hr
  refine run_rule (P := fun s x r => good s → r.2 = .waiting s' z → Visits M s (x ++ y) d u) ?_ ?_ ?_ s x
  · intro s x _ _ hr
    cases hr
  · intro s x n e s'' hp hi _ hr
    obtain ⟨rfl, rfl, rfl⟩ := hM.idle hp hi
    cases hr
    exact hv
  · intro s x n e s'' hp hm ih ho hr
    obtain ⟨hn, hy'⟩ := hM.takes ho hp hm
    rcases hy' y hy with he | ⟨ha, hl, hw, hn, m, f, g, _, -, hf, hb, hg, hk, -⟩
    · refine .step he hm ?_
      rw [List.drop_append_of_le_length (hM.takes ho hp hm).1]
      exact ih (hM.good_step ho hp) hr
    · -- the state after the longer slice is the one the rest is read from
      rw [ha, List.drop_length, run_idle hl hw] at hr
      cases hr
      cases hv with
      | here => exact absurd ht (hn _ _)
      | step h _ hv =>
        cases h.symm.trans hf
        refine .step hg hk ?_
        rwa [show (x ++ y).drop (n + m) = y.drop m by rw [ha, List.drop_append]; simp]

lemma Visits.length_le (h : Visits M s x d z) : z.length ≤ x.length := by
  induction h with
  | here => exact le_rfl
  | step _ _ _ ih =>
    rw [List.length_drop] at ih
    omega

/-- With nothing behind the tear, the machine fails there at the latest. -/
lemma Visits.fails (hM : M.Splits good content torn) (ho : good s) (hv : Visits M s (x ++ y) d (z ++ y))
    (ht : torn d z y)
    (hy : y ≠ []) : (M.run s x).2.outcome = none := by
  generalize hu : x ++ y = u at hv
  generalize hw : z ++ y = w at hv
  induction hv generalizing x with
  | here s =>
    subst hw
    rw [List.append_cancel_right hu, run_failed (hM.stops ht)]
    rfl
  | @step s s' d _ _ n e h hm hv ih =>
    subst hu hw
    have hl := hv.length_le
    have hp := List.length_pos_of_ne_nil hy
    rw [List.length_drop, List.length_append, List.length_append] at hl
    match hs : M.step s x with
    | none =>
      rw [run_failed hs]
      rfl
    | some (n', e', s'') =>
      cases hm' : M.more n' e' s'' with
      | false =>
        obtain ⟨rfl, rfl, rfl⟩ := hM.idle hs hm'
        have := hM.late hs hm' h hm
        omega
      | true =>
        obtain ⟨hn, hy'⟩ := hM.takes ho hs hm'
        rcases hy' y hy with he | ⟨ha, -, -, -, m, _, _, _, hm₀, -, -, hg, -⟩
        · cases he.symm.trans h
          rw [run_more hs hm']
          exact ih (hM.good_step ho h) ht (List.drop_append_of_le_length hn).symm rfl
        · cases hg.symm.trans h
          omega

end

/-- Read in one piece, the input leads to a state that is torn where a piece ends. -/
def Torn (M : Stepper σ α ε) (torn : σ → List α → List α → Prop) (s : σ) (x : List α) (pieces : List (List α)) : Prop :=
  ∃ before after d z, pieces = before ++ after ∧ after.flatten ≠ [] ∧ torn d z after.flatten ∧
    Visits M s (x ++ pieces.flatten) d (z ++ after.flatten)

lemma feedAll_flatten (hM : M.Splits good content torn) {pieces : List (List α)} (hg : good s)
    (ht : M.run s x = ([], .waiting s x)) (hr : ¬ Torn M torn s x pieces) :
    seen content (M.feedAll (.waiting s x) pieces) = seen content (M.feed (.waiting s x) pieces.flatten) := by
  induction pieces generalizing s x with
  | nil => rw [List.flatten_nil, feed, List.append_nil, ht, feedAll]
  | cons piece pieces ih =>
    have hf : pieces.flatten ≠ [] → ¬ Tears torn (M.run s (x ++ piece)).2 pieces.flatten := by
      intro he hb
      cases hs : (M.run s (x ++ piece)).2 with
      | failed d z =>
        rw [hs] at hb
        refine hr ⟨[piece], pieces, d, z, rfl, he, hb, ?_⟩
        rw [List.flatten_cons, ← List.append_assoc]
        exact visits_failed hM hg hs he
      | waiting =>
        rw [hs] at hb
        exact hb
    have hl : ∀ s' z, (M.run s (x ++ piece)).2 = .waiting s' z → ¬ Torn M torn s' z pieces := by
      rintro s' z hs ⟨before, after, d, w, rfl, he, hb, hv⟩
      refine hr ⟨piece :: before, after, d, w, rfl, he, hb, ?_⟩
      rw [List.flatten_cons, ← List.append_assoc]
      exact visits_waiting hM hg hs (by simp [he]) hb hv
    have hw : seen content (M.feed (.waiting s x) (piece :: pieces).flatten) = seen content
        ((M.run s (x ++ piece)).1 ++ (M.feed (M.run s (x ++ piece)).2 pieces.flatten).1,
          (M.feed (M.run s (x ++ piece)).2 pieces.flatten).2) := by
      by_cases he : pieces.flatten = []
      · cases hn : (M.run s (x ++ piece)).2 with
        | failed => simp [feed, he, hn, seen]
        | waiting => simp [feed, he, hn, seen, run_waiting hM hn]
      · rw [feed, List.flatten_cons, ← List.append_assoc]
        exact run_append hM hg he (hf he)
    rw [hw, feedAll]
    cases hn : (M.run s (x ++ piece)).2 with
    | failed => simp only [feed, hn, feedAll_failed]
    | waiting =>
      have hp := ih (run_good hM hg hn) (run_waiting hM hn) (hl _ _ hn)
      have ha := congrArg (fun r => ((M.run s (x ++ piece)).1.flatMap content ++ r.1, r.2)) hp
      simpa only [feed, hn, seen, List.flatMap_append] using ha

lemma torn_fails (hM : M.Splits good content torn) {pieces : List (List α)} (hg : good s)
    (ht : M.run s x = ([], .waiting s x)) (h : Torn M torn s x pieces) :
    (M.feedAll (.waiting s x) pieces).2.outcome = none := by
  induction hn : pieces.length using Nat.strong_induction_on generalizing pieces with
  | h k ih =>
    subst hn
    obtain ⟨before, after, d, z, rfl, ha, htorn, hv⟩ := h
    have hb : (M.feedAll (.waiting s x) before).2.outcome = none := by
      by_cases hr : Torn M torn s x before
      · refine ih before.length ?_ hr rfl
        rw [List.length_append]
        have := List.length_pos_of_ne_nil fun h : after = [] => ha (by rw [h]; rfl)
        omega
      · rw [List.flatten_append, ← List.append_assoc] at hv
        exact (congrArg Prod.snd (feedAll_flatten hM hg ht hr)).trans (hv.fails hM hg htorn ha)
    rw [feedAll_append]
    cases hs : (M.feedAll (.waiting s x) before).2 with
    | failed => rw [feedAll_failed, Stand.outcome]
    | waiting =>
      rw [hs] at hb
      cases hb

end

end Stepper

end Turnloop.Lib
