import Turnloop.Table.Definitions

/-! Paged slots, and the flat vector they stand for. -/

namespace Turnloop

open List Lib Table

structure Slots (T : Type) where
  pages : List (List (Option T))
  ceiling : ℕ

/-- A slot borrowed for writing: what it holds, and the slots with something else in it. -/
abbrev SlotMut (T : Type) := Option T × (Option T → Slots T)

namespace Slots

variable {T : Type} (s : Slots T)

def grow : Slots T × Bool :=
  let base := s.pages.length * PAGE
  if base ≥ s.ceiling then (s, false)
  else ({ s with pages := s.pages ++ [replicate (min PAGE (s.ceiling - base)) none] }, true)

def new (ceiling : ℕ) : Slots T := (grow ⟨[], ceiling⟩).1

def materialised : ℕ := min (s.pages.length * PAGE) s.ceiling

-- The outer `none` is a panic, here and below.
def read (i : ℕ) : Option (Option (Option T)) :=
  if i ≥ s.ceiling then some none
  else
    match s.pages[i / PAGE]? with
    | some page => page[i % PAGE]?.map some
    | none => some (some none)

/-- The loop of `materialise`: each round builds a page, or its `assert` fails. -/
def growBy : ℕ → Slots T → Option (Slots T)
  | 0, s => some s
  | k + 1, s => if s.grow.2 then growBy k s.grow.1 else none

def materialise (i : ℕ) : Option (SlotMut T) :=
  if i < s.ceiling then do
    let s ← growBy (i / PAGE + 1 - s.pages.length) s
    if i < s.materialised then
      (Pages.lookup PAGE s.pages i).map fun v => (v, fun w => { s with pages := Pages.write PAGE s.pages i w })
    else none
  else none

def getMut (i : ℕ) : Option (Option (SlotMut T)) := if i < s.ceiling then (s.materialise i).map some else some none

def getOrInsertWith (i : ℕ) (build : T) : Option (T × Slots T) :=
  (s.materialise i).map fun m => (m.1.getD build, m.2 (some (m.1.getD build)))

def iter : List (Option T) := s.pages.flatten

def index (i : ℕ) : Option (Option T) := (s.read i).join

end Slots

inductive SlotOp (T : Type)
  | index (i : ℕ)
  | get (i : ℕ)
  | write (i : ℕ) (v : Option T)
  | getMut (i : ℕ) (f : Option T → Option T)
  | getOrInsertWith (i : ℕ) (build : T)

/-- The operations that name a slot outright stay below the ceiling. -/
def SlotOp.Within (ceiling : ℕ) : SlotOp T → Prop
  | .index i | .write i _ | .getOrInsertWith i _ => i < ceiling
  | .get _ | .getMut _ _ => True

/-- On the flat vector: what the operation gives, and the vector after it. -/
def SlotOp.flat (v : List (Option T)) : SlotOp T → Option (Option T) × List (Option T)
  | .index i | .get i => (v[i]?, v)
  | .write i x => (none, v.set i x)
  | .getMut i f => (v[i]?, v.modify i f)
  | .getOrInsertWith i x => (v[i]?.map fun o => some (o.getD x), v.modify i fun o => some (o.getD x))

namespace Slots

def step (s : Slots T) : SlotOp T → Option (Option (Option T) × Slots T)
  | .index i => (s.index i).map fun v => (some v, s)
  | .get i => (s.read i).map fun r => (r, s)
  | .write i v => (s.materialise i).map fun m => (none, m.2 v)
  | .getMut i f => (s.getMut i).map fun r => r.elim (none, s) fun m => (some m.1, m.2 (f m.1))
  | .getOrInsertWith i x => (s.getOrInsertWith i x).map fun r => (some (some r.1), r.2)

def run (s : Slots T) : List (SlotOp T) → Option (List (Option (Option T)) × Slots T)
  | [] => some ([], s)
  | op :: ops => (s.step op).bind fun r => (r.2.run ops).map fun q => (r.1 :: q.1, q.2)

end Slots

def SlotOp.flatRun (v : List (Option T)) : List (SlotOp T) → List (Option (Option T)) × List (Option T)
  | [] => ([], v)
  | op :: ops => ((op.flat v).1 :: (SlotOp.flatRun (op.flat v).2 ops).1, (SlotOp.flatRun (op.flat v).2 ops).2)

namespace Slots

variable {T : Type} {s : Slots T}

def view (s : Slots T) : List (Option T) := s.iter ++ replicate (s.ceiling - s.iter.length) none

/-- The pages are a dense prefix, clamped to the ceiling. -/
structure Dense (C : ℕ) (s : Slots T) : Prop where
  same : s.ceiling = C
  regular : Pages.Regular PAGE s.pages
  clamped : s.iter.length = s.materialised
  tight : s.pages.length * PAGE < C + PAGE

lemma view_length (h : Dense C s) : s.view.length = C := by
  have hc := h.clamped
  simp only [view, materialised, length_append, length_replicate, ← h.same] at hc ⊢
  omega

lemma grow_dense (h : Dense C s) (hl : s.pages.length * PAGE < C) :
    s.grow.2 = true ∧ Dense C s.grow.1 ∧ s.grow.1.view = s.view ∧ s.grow.1.pages.length = s.pages.length + 1 := by
  obtain ⟨rfl, hr, hc, -⟩ := h
  rw [materialised, min_eq_left hl.le] at hc
  have hg : s.grow = ({ s with pages := s.pages ++ [replicate (min PAGE (s.ceiling - s.pages.length * PAGE)) none] },
    true) := by
    simp [grow, hl]
  have hi : s.grow.1.iter = s.iter ++
    replicate (min PAGE (s.ceiling - s.pages.length * PAGE)) none := by simp [hg, iter]
  refine ⟨by rw [hg], ⟨by rw [hg], ?_, ?_, ?_⟩, ?_, by simp [hg]⟩
  · rw [hg]
    exact hr.concat hc (by simp)
  · rw [hi, length_append, hc]
    simp [hg, materialised, Nat.add_mul]
    omega
  · simp [hg, Nat.add_mul, hl]
  · rw [view, view, hi, length_append, hc, hg]
    simp only [length_replicate, append_assoc, replicate_append_replicate]
    congr 2
    omega

lemma new_dense : Dense C (new C : Slots T) ∧ (new C : Slots T).view = replicate C none := by
  have h : Dense C (⟨[], C⟩ : Slots T) := ⟨rfl, .nil, by simp [iter, materialised], by simp [PAGE]⟩
  have hv : view (⟨[], C⟩ : Slots T) = replicate C none := by simp [view, iter]
  by_cases hC : 0 < C
  · obtain ⟨-, hd, hw, -⟩ := grow_dense h (by simpa using hC)
    exact ⟨hd, hw.trans hv⟩
  · obtain rfl : C = 0 := by omega
    exact ⟨h, hv⟩

lemma growBy_dense (h : Dense C s) (hk : ∀ j < k, (s.pages.length + j) * PAGE < C) :
    ∃ s', growBy k s = some s' ∧ Dense C s' ∧ s'.view = s.view ∧ s'.pages.length = s.pages.length + k := by
  induction k generalizing s with
  | zero => exact ⟨s, rfl, h, rfl, rfl⟩
  | succ k ih =>
    obtain ⟨hg, hd, hv, hl⟩ := grow_dense h (hk 0 k.succ_pos)
    obtain ⟨s', hs, hd', hv', hl'⟩ := ih hd fun j hj => by
      rw [hl, Nat.add_assoc, Nat.add_comm 1]
      exact hk (j + 1) (by omega)
    exact ⟨s', by rw [growBy, if_pos hg, hs], hd', hv'.trans hv, by omega⟩

lemma read_view (h : Dense C s) (i : ℕ) : s.read i = some s.view[i]? := by
  have hl := view_length h
  have hf := Pages.lookup_flatten (by decide) h.regular i
  have hc := h.clamped
  rw [materialised, h.same] at hc
  rw [read, h.same]
  split_ifs with hi
  · rw [getElem?_eq_none (by omega)]
  · cases hp : s.pages[i / PAGE]? with
    | some page =>
      have ht : i < s.pages.length * PAGE := (Nat.div_lt_iff_lt_mul (by decide)).mp (List.getElem?_eq_some_iff.mp hp).1
      rw [view, getElem?_append_left (by omega), iter, ← hf, Pages.lookup, hp]
      have he : (s.iter[i]?).isSome := by simp; omega
      rw [iter, ← hf, Pages.lookup, hp] at he
      obtain ⟨v, hv⟩ := Option.isSome_iff_exists.mp he
      simp_all
    | none =>
      have hb : s.pages.length * PAGE ≤ i := (Nat.le_div_iff_mul_le (by decide)).mp (getElem?_eq_none_iff.mp hp)
      rw [view, h.same, getElem?_append_right (by omega), getElem?_replicate, if_pos (by omega)]

lemma materialise_view (h : Dense C s) (hi : i < C) :
    ∃ v put, s.materialise i = some (v, put) ∧ s.view[i]? = some v ∧ ∀ w, Dense C (put w) ∧
      (put w).view = s.view.set i w := by
  obtain ⟨s', hg, hd, hv, hl⟩ := growBy_dense (k := i / PAGE + 1 - s.pages.length) h fun j hj =>
    ((Nat.mul_le_mul_right PAGE (by omega : s.pages.length + j ≤ i / PAGE)).trans
      (Nat.div_mul_le_self i PAGE)).trans_lt hi
  have ht : i < s'.iter.length := by
    rw [hd.clamped, materialised, hd.same]
    exact lt_min ((Nat.div_lt_iff_lt_mul (by decide)).mp (by omega)) hi
  have hf := Pages.lookup_flatten (by decide) hd.regular i
  rw [← iter, getElem?_eq_getElem ht] at hf
  refine ⟨s'.iter[i], fun w => { s' with pages := Pages.write PAGE s'.pages i w }, ?_, ?_, fun w => ?_⟩
  · rw [materialise, if_pos (h.same ▸ hi), hg]
    simp [hf, ← hd.clamped, ht]
  · rw [← hv, view, getElem?_append_left ht, getElem?_eq_getElem ht]
  · have hw : iter { s' with pages := Pages.write PAGE s'.pages i w } = s'.iter.set i w :=
      Pages.write_flatten (by decide) hd.regular i w
    refine ⟨⟨hd.same, Pages.write_regular hd.regular, ?_, by simpa using hd.tight⟩, ?_⟩
    · rw [hw, length_set, hd.clamped, materialised, materialised, Pages.write_length]
    · rw [view, hw, length_set, ← set_append_left _ _ ht, ← hv, view]

lemma step_flat (h : Dense C s) (ho : op.Within C) :
    ∃ r s', s.step op = some (r, s') ∧ Dense C s' ∧ op.flat s.view = (r, s'.view) := by
  cases op with
  | index i =>
    obtain ⟨v, hv⟩ : ∃ v, s.view[i]? = some v := ⟨_, getElem?_eq_getElem (by rw [view_length h]; exact ho)⟩
    exact ⟨some v, s, by simp [step, index, read_view h, hv], h, by simp [SlotOp.flat, hv]⟩
  | get i => exact ⟨s.view[i]?, s, by simp [step, read_view h], h, rfl⟩
  | write i v =>
    obtain ⟨_, put, hm, -, hp⟩ := materialise_view h ho
    exact ⟨none, put v, by simp [step, hm], (hp v).1, by simp [SlotOp.flat, (hp v).2]⟩
  | getMut i f =>
    by_cases hi : i < C
    · obtain ⟨v, put, hm, hv, hp⟩ := materialise_view h hi
      refine ⟨some v, put (f v), by simp [step, getMut, h.same, hi, hm], (hp _).1, ?_⟩
      simp [SlotOp.flat, hv, (hp _).2, modify_eq_set_getElem?]
    · have hl := view_length h
      exact ⟨none, s, by simp [step, getMut, h.same, hi], h, by simp [SlotOp.flat, hl, not_lt.mp hi,
        modify_eq_set_getElem?]⟩
  | getOrInsertWith i x =>
    obtain ⟨v, put, hm, hv, hp⟩ := materialise_view h ho
    refine ⟨some (some (v.getD x)), put (some (v.getD x)), by simp [step, getOrInsertWith, hm], (hp _).1, ?_⟩
    simp [SlotOp.flat, hv, (hp _).2, modify_eq_set_getElem?]

lemma run_flat (h : Dense C s) (ho : ∀ op ∈ ops, op.Within C) :
    ∃ rs s', s.run ops = some (rs, s') ∧ Dense C s' ∧ SlotOp.flatRun s.view ops = (rs, s'.view) := by
  induction ops generalizing s with
  | nil => exact ⟨[], s, rfl, h, rfl⟩
  | cons op ops ih =>
    rw [forall_mem_cons] at ho
    obtain ⟨r, s₁, hs, hd, hf⟩ := step_flat h ho.1
    obtain ⟨rs, s₂, hr, hd', hf'⟩ := ih hd ho.2
    exact ⟨r :: rs, s₂, by simp [run, hs, hr], hd', by simp [SlotOp.flatRun, hf, hf']⟩

theorem refines_vector (C : ℕ) (ops : List (SlotOp T)) (hops : ∀ op ∈ ops, op.Within C) :
    ∃ rs s, (new C).run ops = some (rs, s) ∧ SlotOp.flatRun (replicate C none) ops = (rs, s.view) ∧ s.view.length = C ∧
      (∀ i, s.read i = some s.view[i]?) ∧ (∀ i, C ≤ i → s.read i = some none ∧ s.getMut i = some none) ∧
      s.iter.zipIdx.filter (·.1.isSome) = s.view.zipIdx.filter (·.1.isSome) ∧ Dense C s := by
  obtain ⟨hd, hv⟩ := new_dense (T := T) (C := C)
  obtain ⟨rs, s, hr, hs, hf⟩ := run_flat hd hops
  refine ⟨rs, s, hr, hv ▸ hf, view_length hs, read_view hs, fun i hi => ?_, ?_, hs⟩
  · have hl := view_length hs
    rw [read_view hs, getElem?_eq_none (by omega), getMut, if_neg (by rw [hs.same]; omega)]
    exact ⟨rfl, rfl⟩
  · rw [view, zipIdx_append, filter_append]
    refine (append_right_eq_self.mpr (filter_eq_nil_iff.mpr fun p hp => ?_)).symm
    simp [fst_eq_of_mem_zipIdx hp]

theorem refines_vector_write :
    ∃ rs s, (new 2).run [SlotOp.write 1 (some 5), .get 7, .index 1] = some (rs, s) ∧ Dense 2 s := by
  obtain ⟨rs, s, hr, -, -, -, -, -, hd⟩ :=
    refines_vector 2 [SlotOp.write 1 (some 5), .get 7, .index 1] (by simp [SlotOp.Within])
  exact ⟨rs, s, hr, hd⟩

end Slots

end Turnloop
