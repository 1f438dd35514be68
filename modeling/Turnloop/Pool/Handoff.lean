import Turnloop.Pool.LongSet

/-! Every long job that is accepted runs once. -/

namespace Turnloop.Pool.LongSet

open Lib List Bool

variable {s : LongSet} {w j : ℕ} {x : Worker}

structure Counted (s : LongSet) : Prop where
  handed : s.long.jobs.length ≤ s.long.idle
  idle : s.long.idle = s.workers.countP Worker.isParked
  threads : s.long.threads = s.workers.countP Worker.isLive + s.calls.countP Submission.isSpawning
  ceiling : s.long.threads ≤ s.max
  live : s.live = s.long.threads

structure Ledger (s : LongSet) : Prop where
  once : (s.runs.map Prod.fst ++ s.long.jobs).Nodup
  taken : ∀ j, j ∈ s.runs.map Prod.fst ++ s.long.jobs ↔ s.calls[j]? = some .accepted

lemma new_counted (max : ℕ) : (new max).Counted := by
  constructor <;> simp [new]

lemma new_ledger (max : ℕ) : (new max).Ledger := by
  constructor <;> simp [new]

lemma submit_counted (c : s.Counted) : s.submit.Counted := by
  obtain ⟨ha, idle, th, ce, live⟩ := c
  have hc (a : Submission) : (s.calls ++ [a]).countP Submission.isSpawning =
    s.calls.countP Submission.isSpawning + a.isSpawning.toNat := by
    rw [countP_append, countP_singleton, ite_toNat]
  rw [submit]
  split
  case isTrue hr =>
    exact ⟨by simpa using hr, idle, th.trans (by rw [hc]; rfl), ce, live⟩
  case isFalse =>
    split
    case isTrue => exact ⟨ha, idle, th.trans (by rw [hc]; rfl), ce, live⟩
    case isFalse hf =>
      refine ⟨ha, idle, ?_, Nat.lt_of_not_le hf, rfl⟩
      rw [hc, th]
      rfl

lemma spawn_counted (c : s.Counted) : (s.spawn job ok).Counted := by
  obtain ⟨ha, idle, th, ce, live⟩ := c
  rw [spawn]
  split
  case isTrue => exact ⟨ha, idle, th, ce, live⟩
  case isFalse hp =>
    have hc : s.calls[job]? = some .spawning := by simpa using hp
    have he := countP_set Submission.isSpawning hc
    split
    case isTrue =>
      have hb := he .accepted
      have hw (p : Worker → Bool) :
          (s.workers ++ [Worker.running job]).countP p = s.workers.countP p + (p (.running job)).toNat := by
        rw [countP_append, countP_singleton, ite_toNat]
      refine ⟨ha, idle.trans (by rw [hw]; rfl), ?_, ce, live⟩
      rw [hw]
      simp only [Submission.isSpawning, Worker.isLive, toNat_true, toNat_false] at hb ⊢
      omega
    case isFalse =>
      have hb := he .refused
      refine ⟨ha, idle, ?_, (Nat.sub_le _ _).trans ce, rfl⟩
      simp only [Submission.isSpawning, toNat_true, toNat_false] at hb ⊢
      omega

lemma serve_counted (hw : s.workers[w]? = some x) (hx : x.isLive = true) (ha : s.long.jobs.length ≤ s.long.idle)
    (idle : s.long.idle = s.workers.countP Worker.isParked + (!x.isParked).toNat)
    (threads : s.long.threads = s.workers.countP Worker.isLive + s.calls.countP Submission.isSpawning)
    (ceiling : s.long.threads ≤ s.max) (live : s.live = s.long.threads) : (s.serve w).Counted := by
  have hb (y : Worker) := countP_set Worker.isParked hw y
  have hl (y : Worker) (hy : y.isLive = true) :
      (s.workers.set w y).countP Worker.isLive = s.workers.countP Worker.isLive := by
    have he := countP_set Worker.isLive hw y
    rw [hx, hy] at he
    omega
  have hi : (!x.isParked).toNat + x.isParked.toNat = 1 := by cases x.isParked <;> rfl
  rw [serve]
  split
  case h_1 job rest hj =>
    have hp : _ + x.isParked.toNat = _ + 0 := hb (.running job)
    rw [hj, length_cons] at ha
    refine ⟨Nat.le_sub_one_of_lt ha, ?_, threads.trans (by rw [hl _ rfl]), ceiling, live⟩
    dsimp only
    omega
  case h_2 hj =>
    have hp : _ + x.isParked.toNat = _ + 1 := hb .parked
    refine ⟨ha, ?_, threads.trans (by rw [hl _ rfl]), ceiling, live⟩
    dsimp only
    omega

lemma finish_counted (c : s.Counted) : (s.finish w).Counted := by
  obtain ⟨ha, idle, th, ce, live⟩ := c
  rw [finish]
  split
  case h_1 job hw =>
    exact serve_counted hw rfl (Nat.le_succ_of_le ha) (congrArg (· + 1) idle) th ce live
  case h_2 => exact ⟨ha, idle, th, ce, live⟩

lemma wake_counted (c : s.Counted) : (s.wake w timedOut).Counted := by
  obtain ⟨ha, idle, th, ce, live⟩ := c
  rw [wake]
  split
  case h_1 hw =>
    split
    case isTrue hl =>
      have hn : s.long.jobs = [] := List.isEmpty_iff.mp (and_eq_true_iff.mp hl).2
      have hp := countP_set Worker.isParked hw .retiring
      have hg := countP_set Worker.isLive hw .retiring
      simp only [Worker.isParked, Worker.isLive, toNat_true, toNat_false] at hp hg
      refine ⟨by simp [hn], ?_, ?_, ce, live⟩
      · dsimp only
        omega
      · dsimp only
        omega
    case isFalse => exact serve_counted hw rfl ha idle th ce live
  case h_2 => exact ⟨ha, idle, th, ce, live⟩

lemma dropRetire_counted (c : s.Counted) (hw : s.workers[w]? = some x) (hx : x.isLive = true)
    (hi : x.isParked = false) : (s.dropRetire w).Counted := by
  obtain ⟨ha, idle, _, ce, _⟩ := c
  have hp := countP_set Worker.isParked hw .gone
  have hg := countP_set Worker.isLive hw .gone
  rw [hi] at hp
  rw [hx] at hg
  refine ⟨ha, ?_, ?_, (Nat.sub_le _ _).trans ce, rfl⟩
  · exact idle.trans hp.symm
  · change _ + 1 = _ + 0 at hg
    dsimp only [dropRetire]
    omega

lemma step_counted (c : s.Counted) (a : Action) : (s.step a).Counted := by
  cases a with
  | submit => exact submit_counted c
  | spawn job ok => exact spawn_counted c
  | finish w => exact finish_counted c
  | wake w timedOut => exact wake_counted c
  | retire =>
    rw [step, retire]
    split
    case h_1 hw => exact dropRetire_counted c hw rfl rfl
    case h_2 => exact c
  | unwind =>
    rw [step, unwind]
    split
    case h_1 hw => exact dropRetire_counted c hw rfl rfl
    case h_2 => exact c

namespace Ledger

lemma frame {s' : LongSet} (l : s.Ledger)
    (jobs : s'.runs.map Prod.fst ++ s'.long.jobs = s.runs.map Prod.fst ++ s.long.jobs)
    (calls : ∀ j : ℕ, s'.calls[j]? = some Submission.accepted ↔ s.calls[j]? = some .accepted) : s'.Ledger := by
  refine ⟨jobs ▸ l.once, fun j => ?_⟩
  rw [jobs, calls]
  exact l.taken j

lemma accept {s' : LongSet} (l : s.Ledger) (hn : s.calls[n]? ≠ some .accepted)
    (jobs : (s'.runs.map Prod.fst ++ s'.long.jobs).Perm (n :: (s.runs.map Prod.fst ++ s.long.jobs)))
    (calls : ∀ j : ℕ, s'.calls[j]? = some Submission.accepted ↔ j = n ∨ s.calls[j]? = some .accepted) : s'.Ledger := by
  refine ⟨jobs.nodup_iff.mpr (nodup_cons.mpr ⟨fun hm => hn ((l.taken n).mp hm), l.once⟩), fun j => ?_⟩
  rw [jobs.mem_iff, mem_cons, l.taken, calls]

end Ledger

lemma accepted_concat (calls : List Submission) (x : Submission) (j : ℕ) :
    (calls ++ [x])[j]? = some .accepted ↔ (j = calls.length ∧ x = .accepted) ∨ calls[j]? = some .accepted := by
  rcases Nat.lt_trichotomy j calls.length with hj | rfl | hj
  · simp [getElem?_append_left hj, hj.ne]
  · simp
  · have hl : calls.length ≤ j := hj.le
    simp [hj.ne', hj, getElem?_eq_none hl]

lemma submit_ledger (l : s.Ledger) : s.submit.Ledger := by
  rw [submit]
  split
  case isTrue =>
    refine l.accept (n := s.calls.length) (by simp) ?_ fun j => ?_
    · rw [← append_assoc]
      exact perm_append_singleton _ _
    · simp [accepted_concat]
  case isFalse =>
    split
    case isTrue => exact l.frame rfl fun j => by simp [accepted_concat]
    case isFalse => exact l.frame rfl fun j => by simp [accepted_concat]

lemma spawn_ledger (l : s.Ledger) : (s.spawn job ok).Ledger := by
  rw [spawn]
  split
  case isTrue => exact l
  case isFalse hp =>
    have hc : s.calls[job]? = some .spawning := by simpa using hp
    have hl : job < s.calls.length := (List.getElem?_eq_some_iff.mp hc).1
    have he (x : Submission) (j : ℕ) : (s.calls.set job x)[j]? = some .accepted ↔
        (j = job ∧ x = .accepted) ∨ s.calls[j]? = some .accepted := by
      rcases eq_or_ne j job with rfl | hn
      · rw [getElem?_set_self hl, hc]
        simp
      · simp [getElem?_set_ne hn.symm, hn]
    split
    case isTrue =>
      refine l.accept (n := job) (by simp [hc]) ?_ fun j => ?_
      · simp only [map_append, map_cons, map_nil, append_assoc]
        exact perm_middle
      · simp [he]
    case isFalse => exact l.frame rfl fun j => by simp [he]

lemma serve_ledger (l : s.Ledger) : (s.serve w).Ledger := by
  rw [serve]
  split
  case h_1 job rest hj => exact l.frame (by simp [hj]) fun _ => .rfl
  case h_2 => exact l.frame rfl fun _ => .rfl

lemma step_ledger (l : s.Ledger) (a : Action) : (s.step a).Ledger := by
  cases a with
  | submit => exact submit_ledger l
  | spawn job ok => exact spawn_ledger l
  | finish w =>
    rw [step, finish]
    split
    case h_1 =>
      have hi : Ledger { s with long := { s.long with idle := s.long.idle + 1 } } := l.frame rfl fun _ => .rfl
      exact serve_ledger hi
    case h_2 => exact l
  | wake w =>
    rw [step, wake]
    split
    case h_1 =>
      split
      · exact l.frame rfl fun _ => .rfl
      · exact serve_ledger l
    case h_2 => exact l
  | retire =>
    rw [step, retire]
    split
    · exact l.frame rfl fun _ => .rfl
    · exact l
  | unwind =>
    rw [step, unwind]
    split
    · exact l.frame rfl fun _ => .rfl
    · exact l

lemma step_max (s : LongSet) (a : Action) : (s.step a).max = s.max := by
  cases a <;> simp only [step, submit, spawn, finish, wake, retire, unwind, serve, dropRetire] <;> repeat' split
  all_goals rfl

structure Sound (max : ℕ) (s : LongSet) : Prop where
  counted : s.Counted
  ledger : s.Ledger
  max : s.max = max

lemma Sound.step {max : ℕ} (h : s.Sound max) (a : Action) : (s.step a).Sound max :=
  ⟨step_counted h.counted a, step_ledger h.ledger a, (step_max s a).trans h.max⟩

lemma Sound.run {max : ℕ} (h : s.Sound max) (actions : List Action) : (s.run actions).Sound max := by
  induction actions generalizing s with
  | nil => exact h
  | cons a rest ih => exact ih (h.step a)

lemma new_sound (max : ℕ) : (new max).Sound max := ⟨new_counted max, new_ledger max, rfl⟩

inductive Moves (s s' : LongSet) : Prop
  | waits (new : List ℕ) (jobs : s'.long.jobs = s.long.jobs ++ new)
      (parked : s.long.jobs ≠ [] → ∀ w : ℕ, s.workers[w]? = some Worker.parked → s'.workers[w]? = some Worker.parked)
  | takes (job : ℕ) (rest : List ℕ) (w : ℕ) (first : s.long.jobs = job :: rest) (jobs : s'.long.jobs = rest)
      (run : (job, w) ∈ s'.runs)

lemma parked_set (hw : s.workers[w]? = some x) (hx : x ≠ .parked) {v : ℕ}
    (hv : s.workers[v]? = some .parked) : (s.workers.set w y)[v]? = some .parked := by
  have hn : w ≠ v := by
    rintro rfl
    exact hx (Option.some.inj (hw.symm.trans hv))
  rwa [getElem?_set_ne hn]

lemma serve_moves (jobs : s.long.jobs = s₀.long.jobs) (w : ℕ) : Moves s₀ (s.serve w) := by
  rw [serve]
  split
  case h_1 job rest hj => exact .takes job rest w (jobs ▸ hj) rfl (by simp)
  case h_2 hj => exact .waits [] (by simp [jobs]) fun hn => absurd (jobs ▸ hj) hn

lemma step_moves (s : LongSet) (a : Action) : Moves s (s.step a) := by
  have hi : Moves s s := .waits [] (by simp) fun _ _ hv => hv
  cases a with
  | submit =>
    rw [step, submit]
    split
    · exact .waits [s.calls.length] rfl fun _ _ hv => hv
    · split <;> exact .waits [] (by simp) fun _ _ hv => hv
  | spawn =>
    rw [step, spawn]
    split
    · exact hi
    · split
      · refine .waits [] (by simp) fun _ v hv => ?_
        rwa [getElem?_append_left (List.getElem?_eq_some_iff.mp hv).1]
      · exact .waits [] (by simp) fun _ _ hv => hv
  | finish =>
    rw [step, finish]
    split
    case h_1 =>
      apply serve_moves
      rfl
    case h_2 => exact hi
  | wake w =>
    rw [step, wake]
    split
    case h_1 hw =>
      split
      case isTrue hl =>
        have hn := List.isEmpty_iff.mp (and_eq_true_iff.mp hl).2
        exact .waits [] (by simp) fun he => absurd hn he
      case isFalse => exact serve_moves rfl w
    case h_2 => exact hi
  | retire =>
    rw [step, retire]
    split
    case h_1 hw => exact .waits [] (by simp [dropRetire]) fun _ v hv => parked_set hw nofun hv
    case h_2 => exact hi
  | unwind =>
    rw [step, unwind]
    split
    case h_1 job hw => exact .waits [] (by simp [dropRetire]) fun _ v hv => parked_set hw nofun hv
    case h_2 => exact hi

lemma wake_takes (hw : s.workers[w]? = some .parked) (hj : s.long.jobs = job :: rest) {timedOut : Bool} :
    s.wake w timedOut = s.serve w := by
  simp [wake, hw, hj]

structure Fair (max : ℕ) (states : ℕ → LongSet) (actions : ℕ → Action) : Prop where
  start : states 0 = new max
  next : ∀ n, states (n + 1) = (states n).step (actions n)
  wakes : ∀ n w : ℕ, (states n).workers[w]? = some Worker.parked → ∃ m ≥ n, ∃ timedOut, actions m = .wake w timedOut

section

variable {max : ℕ} {states : ℕ → LongSet} {actions : ℕ → Action}

lemma Fair.sound (f : Fair max states actions) (n : ℕ) : (states n).Sound max := by
  induction n with
  | zero => exact f.start ▸ new_sound max
  | succ n ih => exact f.next n ▸ ih.step (actions n)

lemma front (hj : ahead ++ j :: behind = job :: rest) :
    job = j ∨ ∃ x ahead', ahead = x :: ahead' ∧ rest = ahead' ++ j :: behind := by
  cases ahead with
  | nil => exact .inl (cons.inj hj).1.symm
  | cons x ahead' => exact .inr ⟨x, ahead', rfl, (cons.inj hj).2.symm⟩

lemma Fair.advance (f : Fair max states actions) (k : ℕ)
    (hj : (states n).long.jobs = ahead ++ j :: behind) (hw : (states n).workers[w]? = some .parked)
    (ha : actions (n + k) = .wake w timedOut) :
    ∃ m, (∃ v, (j, v) ∈ (states m).runs) ∨ ∃ x ahead' behind', ahead = x :: ahead' ∧
      (states m).long.jobs = ahead' ++ j :: behind' := by
  induction k generalizing n behind with
  | zero =>
    obtain ⟨job, rest, hf⟩ : ∃ job rest, (states n).long.jobs = job :: rest := by
      rw [hj]
      cases ahead with
      | nil => exact ⟨j, behind, rfl⟩
      | cons x ahead' => exact ⟨x, ahead' ++ j :: behind, rfl⟩
    have hn : states (n + 1) = (states n).serve w := by
      rw [f.next, show actions n = .wake w timedOut from ha]
      exact wake_takes hw hf
    refine ⟨n + 1, ?_⟩
    rw [hn, serve, hf]
    rcases front (hj.symm.trans hf) with rfl | ⟨x, ahead', rfl, rfl⟩
    · exact .inl ⟨w, by simp⟩
    · exact .inr ⟨x, ahead', behind, rfl, rfl⟩
  | succ k ih =>
    have hm := f.next n ▸ step_moves (states n) (actions n)
    cases hm with
    | waits new jobs parked =>
      have hj' : (states (n + 1)).long.jobs = ahead ++ j :: (behind ++ new) := by
        rw [jobs, hj, append_assoc]
        rfl
      refine ih hj' (parked (by simp [hj]) w hw) ?_
      rwa [Nat.add_right_comm n 1 k]
    | takes job rest v first jobs run =>
      refine ⟨n + 1, ?_⟩
      rcases front (hj.symm.trans first) with rfl | ⟨x, ahead', rfl, rfl⟩
      · exact .inl ⟨v, run⟩
      · exact .inr ⟨x, ahead', behind, rfl, jobs⟩

lemma Counted.parked (c : s.Counted) (hj : j ∈ s.long.jobs) : ∃ w : ℕ, s.workers[w]? = some .parked := by
  have hp : 0 < s.workers.countP Worker.isParked := by
    rw [← c.idle]
    exact (length_pos_of_mem hj).trans_le c.handed
  obtain ⟨x, hx, ha⟩ := countP_pos_iff.mp hp
  obtain ⟨w, hw⟩ := mem_iff_getElem?.mp hx
  cases x with
  | parked => exact ⟨w, hw⟩
  | _ => cases ha

lemma Fair.runs (f : Fair max states actions) (hj : (states n).long.jobs = ahead ++ j :: behind) :
    ∃ m v, (j, v) ∈ (states m).runs := by
  induction ahead generalizing n behind with
  | nil =>
    obtain ⟨w, hw⟩ := (f.sound n).counted.parked (j := j) (by simp [hj])
    obtain ⟨m, hm, timedOut, ha⟩ := f.wakes n w hw
    obtain ⟨k, rfl⟩ := Nat.exists_eq_add_of_le hm
    obtain ⟨m, hr | ⟨x, a', b', hn, -⟩⟩ := f.advance k hj hw ha
    · exact ⟨m, hr⟩
    · cases hn
  | cons x ahead ih =>
    obtain ⟨w, hw⟩ := (f.sound n).counted.parked (j := j) (by simp [hj])
    obtain ⟨m, hm, timedOut, ha⟩ := f.wakes n w hw
    obtain ⟨k, rfl⟩ := Nat.exists_eq_add_of_le hm
    obtain ⟨m, hr | ⟨_, a', b', hc, hj'⟩⟩ := f.advance k hj hw ha
    · exact ⟨m, hr⟩
    · obtain ⟨-, rfl⟩ := cons.inj hc
      exact ih hj'

end

lemma step_refused (hj : s.calls[j]? = some .refused) : (s.step a).calls[j]? = some .refused := by
  have hl : j < s.calls.length := (List.getElem?_eq_some_iff.mp hj).1
  cases a with
  | submit =>
    rw [step, submit]
    split
    · simpa [getElem?_append_left hl] using hj
    · split <;> simpa [getElem?_append_left hl] using hj
  | spawn job ok =>
    rw [step, spawn]
    split
    · exact hj
    · rename_i hp
      have hn : job ≠ j := by
        rintro rfl
        simp [hj] at hp
      split <;> simpa [getElem?_set_ne hn] using hj
  | finish =>
    rw [step, finish]
    split
    · rw [serve]
      split <;> exact hj
    · exact hj
  | wake =>
    rw [step, wake]
    split
    · split
      · exact hj
      · rw [serve]
        split <;> exact hj
    · exact hj
  | retire =>
    rw [step, retire]
    split <;> exact hj
  | unwind =>
    rw [step, unwind]
    split <;> exact hj

lemma run_refused (hj : s.calls[j]? = some .refused) : (s.run actions).calls[j]? = some .refused := by
  induction actions generalizing s with
  | nil => exact hj
  | cons a rest ih => exact ih (step_refused hj)

def working (s : LongSet) : ℕ :=
  s.workers.countP (fun x => x.isLive && !x.isParked) + s.calls.countP Submission.isSpawning

lemma Counted.working (c : s.Counted) : s.long.idle + s.working = s.long.threads := by
  have hp : ∀ l : List Worker, l.countP Worker.isParked + l.countP (fun x => x.isLive && !x.isParked) =
    l.countP Worker.isLive := by
    intro l
    induction l with
    | nil => rfl
    | cons x l ih =>
      have hx : x.isParked.toNat + (x.isLive && !x.isParked).toNat = x.isLive.toNat := by cases x <;> rfl
      simp only [countP_cons, ite_toNat]
      omega
  have hw := hp s.workers
  have hi := c.idle
  have hh := c.threads
  rw [LongSet.working]
  omega

lemma Ledger.placed (l : s.Ledger) (hj : s.calls[j]? = some .accepted) :
    (j ∈ s.long.jobs ∧ (s.runs.map Prod.fst).count j = 0) ∨ (j ∉ s.long.jobs ∧ (s.runs.map Prod.fst).count j = 1) := by
  obtain ⟨hr, -, ha⟩ := nodup_append'.mp l.once
  rcases mem_append.mp ((l.taken j).mpr hj) with hn | ho
  · exact .inr ⟨fun ho => ha hn ho, count_eq_one_of_mem hr hn⟩
  · exact .inl ⟨ho, count_eq_zero.mpr fun hn => ha hn ho⟩

theorem long_jobs_run_once (max : ℕ) :
    (∀ actions : List Action, let s := (new max).run actions
      s.long.jobs.length ≤ s.long.idle ∧ s.long.idle + s.working = s.long.threads ∧ s.long.threads ≤ max ∧
      (∀ j, s.calls[j]? = some .accepted → (j ∈ s.long.jobs ∧ (s.runs.map Prod.fst).count j = 0) ∨
        (j ∉ s.long.jobs ∧ (s.runs.map Prod.fst).count j = 1)) ∧
      (∀ j ∈ s.long.jobs, (∃ w : ℕ, s.workers[w]? = some Worker.parked) ∧
        ∀ w timedOut, s.workers[w]? = some Worker.parked →
          ∃ job, (s.wake w timedOut).workers[w]? = some (.running job)) ∧
      (∀ j, s.calls[j]? = some .refused → ∀ more, j ∉ ((s.run more).runs.map Prod.fst ++ (s.run more).long.jobs)) ∧
      (s.submit.calls[s.calls.length]? = some .refused → s.submit.long = s.long ∧ s.submit.live = s.live) ∧
      (s.submit.calls[s.calls.length]? = some .spawning →
        s.submit.long = { s.long with threads := s.long.threads + 1, started := s.long.started + 1 }) ∧
      ∀ j, s.calls[j]? = some .spawning → (s.spawn j false).long = { s.long with threads := s.long.threads - 1 }) ∧
    ∀ states actions, Fair max states actions → ∀ n j, (states n).calls[j]? = some .accepted →
      ∃ m w, (j, w) ∈ (states m).runs := by
  constructor
  · intro actions
    have hd := (new_sound max).run actions
    simp only
    generalize (new max).run actions = s at hd
    refine ⟨hd.counted.handed, hd.counted.working, hd.max ▸ hd.counted.ceiling,
      fun j hj => hd.ledger.placed hj, fun j hj => ⟨hd.counted.parked hj, fun w timedOut hw => ?_⟩,
      fun j hj more hm => ?_, fun hr => ?_, fun hp => ?_, fun j hj => ?_⟩
    · obtain ⟨job, _, ho⟩ := exists_cons_of_ne_nil (ne_nil_of_mem hj)
      refine ⟨job, ?_⟩
      rw [wake_takes hw ho, serve, ho]
      exact getElem?_set_self (List.getElem?_eq_some_iff.mp hw).1
    · have ha := ((hd.run more).ledger.taken j).mp hm
      rw [run_refused hj] at ha
      cases ha
    · rw [submit] at hr ⊢
      split_ifs at hr ⊢ with hc hf
      · simp at hr
      · exact ⟨rfl, rfl⟩
      · simp at hr
    · rw [submit] at hp ⊢
      split_ifs at hp ⊢ with hc hf
      · simp at hp
      · simp at hp
      · rfl
    · simp [spawn, hj]
  · intro states actions f n j hj
    rcases mem_append.mp (((f.sound n).ledger.taken j).mpr hj) with hn | hb
    · obtain ⟨⟨_, w⟩, hm, rfl⟩ := mem_map.mp hn
      exact ⟨n, w, hm⟩
    · obtain ⟨_, _, ho⟩ := append_of_mem hb
      exact f.runs ho

def handoff : ℕ → Action
  | 0 | 3 => .submit
  | 1 => .spawn 0 true
  | 2 => .finish 0
  | _ => .wake 0 false

lemma handoff_fair : Fair 1 (fun n => (new 1).run ((List.range n).map handoff)) handoff := by
  have he (n : ℕ) : (new 1).run ((range (n + 1)).map handoff) =
    ((new 1).run ((range n).map handoff)).step (handoff n) := by
    rw [range_succ, map_append, run, foldl_append]
    rfl
  have hr (k : ℕ) : (new 1).run ((range (k + 5)).map handoff) = (new 1).run ((range 5).map handoff) := by
    induction k with
    | zero => rfl
    | succ k ih =>
      rw [Nat.add_right_comm k 1 5, he, ih]
      rfl
  refine ⟨rfl, he, fun n w hw => ?_⟩
  rcases Nat.lt_or_ge n 5 with hn | hn
  · have hw0 : w = 0 := by
      cases w with
      | zero => rfl
      | succ => interval_cases n <;> simp [run, handoff, new, range_succ, step, submit, spawn, finish, serve] at hw
    exact ⟨4, by omega, false, by rw [hw0]; rfl⟩
  · obtain ⟨k, rfl⟩ := Nat.exists_eq_add_of_le' hn
    simp only [hr] at hw
    cases w with
    | zero | succ => cases hw

theorem long_jobs_run_once_handoff :
    ∃ m w, (1, w) ∈ ((new 1).run ((List.range m).map handoff)).runs :=
  (long_jobs_run_once 1).2 _ handoff handoff_fair 4 1 rfl

end Turnloop.Pool.LongSet
