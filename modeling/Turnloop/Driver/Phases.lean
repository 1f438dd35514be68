import Turnloop.Driver.Deliver

/-! The phases of a turn. -/

namespace Turnloop

open Table (Key)
open Lib List

namespace Books

variable {A : Leave} {b b' : Books}

def Fair (A : Leave) (b : Books) : Prop := A.crowd ∨ ∀ k, b.buffered k ≤ b.config.eventsPerTurn

lemma Fair.push (fair : Fair A b) (room : ∀ k, Driver.eventClass c = some k → A.crowd ∨
    b.buffered k < b.config.eventsPerTurn) :
    A.crowd ∨ ∀ k, (b.push c false).buffered k ≤ b.config.eventsPerTurn := by
  by_cases hA : A.crowd
  · exact .inl hA
  · refine .inr fun k => ?_
    rw [push_buffered]
    by_cases hk : Driver.eventClass c = some k
    · simpa [hk] using (room k hk).resolve_left hA
    · simpa [hk] using fair.resolve_left hA k

lemma Step.fair (fair : Fair A b) (step : Step A b b') : Fair A b' := by
  cases step with
  | notified _ _ _ room => exact fair.push room
  | posted p room =>
    refine fair.push fun k hk => ?_
    obtain rfl : EventClass.post = k := by simpa [Driver.eventClass] using hk
    exact room
  | finished _ _ _ _ _ ordinary | finishedLoose _ _ ordinary =>
    refine fair.push fun k hk => ?_
    rw [class_of_final rfl ordinary] at hk
    cases hk
  | @closeQueued h _ _ token =>
    exact fair.push (c := ⟨token, none, some h, true, .closed⟩) (by simp [Driver.eventClass])
  | @drained q rest | @drainedClosed q rest =>
    exact fair.imp_right fun hl k => (shift_buffered b q rest k).le.trans ((Nat.sub_le _ _).trans (hl k))
  | opened | dropped | tuned | issued | issuedLoose | flagged | took | pooled | refused | polled | referenced
  | closing => exact fair

lemma Steps.fair (fair : Fair A b) (steps : Steps A b b') : Fair A b' := by
  induction steps with
  | refl => exact fair
  | tail _ step ih => exact step.fair ih

end Books

namespace Driver

variable {A : Leave} {d d' : Driver} {id : OpId} {key : Key}

lemma Refines.fair (fair : d.books.Fair A) (refines : Refines A d d') : d'.books.Fair A :=
  Books.Steps.fair fair refines.steps

lemma Fair.room (fair : d.books.Fair A) (hn : ¬d.buffered k = d.config.eventsPerTurn) :
    A.crowd ∨ d.buffered k < d.config.eventsPerTurn :=
  fair.imp_right fun hl => lt_of_le_of_ne (hl k) hn

lemma expireFrom_refines (g : d.Good) (now : Instant) (cancelled : OpId → Result Unit) :
    Refines A d (expireFrom now cancelled n d).1 := by
  induction n generalizing d with
  | zero => exact .refl g
  | succ n ih =>
    rw [expireFrom]
    split
    case h_1 => exact .refl g
    case h_2 connectDeadlines key due hp =>
      split
      case h_1 => exact .of_same g ⟨{ g.sound with }, rfl, rfl⟩
      case h_2 =>
        have hf : Refines A d { d with
            ops := d.ops.modify key fun op => { op with cancel := true, timedOut := true } } := by
          cases hr : d.ops.get key with
          | none =>
            rw [Table.modify_none hr]
            exact .refl g
          | some raw =>
            have ha : ((⟨d.owner, key⟩ : OpId), raw.bare) ∈ d.active :=
              g.sound.mem_active.mpr ⟨rfl, raw, hr, rfl⟩
            exact flag_refines g ha _ (fun _ => rfl) rfl
        have ht : Refines A d { d with
            connectDeadlines := connectDeadlines
            ops := d.ops.modify key fun op => { op with cancel := true, timedOut := true } } :=
          ⟨⟨{ hf.good.sound with }, hf.good.balanced⟩, rfl, hf.steps⟩
        exact ht.trans (ih ht.good)

lemma expireConnects_refines (g : d.Good) (now : Instant) (cancelled : OpId → Result Unit) :
    Refines A d (d.expireConnects now cancelled).1 := expireFrom_refines g now cancelled

lemma poll_rule (P : Driver → Prop) (g : d.Good) {queued : Bool} {s : Surroundings}
    (noted : ∀ d' : Driver, (∀ A, Refines A d d') → P d')
    (batch : ∀ d' : Driver, (∀ A, Refines A d d') → P (s.events.foldl (acceptEvent s.attached) d')) :
    P (d.poll deadline queued s).1 := by
  obtain ⟨hr, ho⟩ := g.reserve
  have hn (timeout : Option Duration) (events : List Event) (A : Leave) : Refines A d { d with
      events := events
      trace := d.trace ++ [Effect.polled timeout d.budget] } :=
    .of_step g ⟨g.sound.edit rfl (.refl g.sound.handles) (.refl g.sound.ops) (by simp) (by simp), rfl, rfl⟩
      (.polled timeout d.budget)
  have hf : d.reservedHandles - d.multishotReserved ≤ d.handles.remaining := by omega
  rw [poll, check_eq hr, check_eq hf]
  simp only [note]
  cases s.polled with
  | error => exact noted _ (hn _ _)
  | ok => exact batch _ (hn _ [])

lemma finish_final (g : d.Good) (mine : id.owner = d.owner) (ordinary : result.Ordinary)
    (plain : result.handle = none) : Refines A d (d.finish id result true) := by
  refine finish_refines g mine ordinary (fun h hh => ?_) true nofun
  rw [plain] at hh
  cases hh

lemma expireTimer_refines (g : d.Good) (notifies : A.notifies)
    (room : A.crowd ∨ d.buffered .timer < d.config.eventsPerTurn) (now : Instant) (key : Key) :
    Refines A d (d.expireTimer now key) := by
  rw [expireTimer]
  cases hr : d.handles.get key with
  | none => exact .refl g
  | some raw =>
    simp only [Option.map_some]
    cases hk : raw.kind with
    | socket | file => exact .refl g
    | timer op repeats =>
      cases op with
      | none => exact .refl g
      | some op =>
        have hl : (⟨d.owner, key⟩, raw.bare) ∈ d.live := g.sound.mem_live.mpr ⟨rfl, raw, hr, rfl⟩
        have mine : op.owner = d.owner := g.balanced.kept.timers _ _ op repeats hl hk
        cases repeats with
        | none => exact finish_final g mine trivial rfl
        | some int =>
          simp only
          cases checkedAdd now int with
          | none => exact finish_final g mine trivial rfl
          | some due =>
            have he : Refines A d { d with timers := d.timers.insert key due } :=
              .of_same g ⟨{ g.sound with }, rfl, rfl⟩
            have hi : Refines A _ (finish _ op .timer false) :=
              finish_refines he.good mine (by trivial) (fun h hh => by cases hh) false fun _ => ⟨notifies, room⟩
            exact he.trans hi

lemma expireTimers_refines (g : d.Good) (fair : d.books.Fair A) (notifies : A.notifies) (now : Instant) (n : ℕ) :
    Refines A d (expireTimers now n d) := by
  induction n generalizing d with
  | zero => exact .refl g
  | succ n ih =>
    rw [expireTimers]
    split
    case isTrue => exact .refl g
    case isFalse hf =>
      split
      case h_1 => exact .refl g
      case h_2 timers key due hp =>
        have he : Refines A d { d with timers := timers } := .of_same g ⟨{ g.sound with }, rfl, rfl⟩
        have ho := he.trans (expireTimer_refines he.good notifies (Fair.room fair hf) now key)
        exact ho.trans (ih ho.good (ho.fair fair))

lemma takeWork_refines (g : d.Good) (mine : work.op.owner = d.owner) : Refines A d (d.takeWork work) := by
  rw [takeWork]
  cases hr : d.ops.get work.op.key with
  | none => exact .refl g
  | some raw =>
    simp only
    split
    case isTrue =>
      split
      case h_1 => exact .refl g
      case h_2 res result he =>
        have hp : result.Ordinary ∧ ∀ h, result.handle = some h → raw.handle = some h := by
          split at he
          · cases he
            exact ⟨trivial, nofun⟩
          · split at he
            · obtain ⟨ho, -, hn⟩ := fsResult_spec he
              exact ⟨ho, hn⟩
            all_goals
              cases he
              exact ⟨trivial, nofun⟩
        refine finishFs_refines g mine hp.1 fun h hh => ?_
        rw [hr]
        exact hp.2 h hh
    case isFalse =>
      split
      · split
        · exact finish_final g mine trivial rfl
        · exact finish_final g mine trivial rfl
      · split
        · exact finish_final g mine trivial rfl
        · exact finish_final g mine trivial rfl
        · exact finish_final g mine trivial rfl
        · exact finish_final g mine trivial rfl
        · exact finish_final g mine trivial rfl

lemma takeWorks_refines {works : List WorkResult} (g : d.Good) (mine : ∀ work ∈ works, work.op.owner = d.owner) :
    Refines A d (works.foldl takeWork d) := by
  induction works generalizing d with
  | nil => exact .refl g
  | cons work rest ih =>
    have ho : Refines A d (d.takeWork work) := takeWork_refines g (mine work mem_cons_self)
    refine ho.trans (ih ho.good fun w' hm => ?_)
    rw [ho.owner]
    exact mine w' (mem_cons_of_mem _ hm)

lemma takePosts_refines (g : d.Good) (fair : d.books.Fair A) (notifies : A.notifies) (n : ℕ) (posts : List Post) :
    Refines A d (takePosts n posts d) := by
  induction n generalizing d posts with
  | zero => exact .refl g
  | succ n ih =>
    cases posts with
    | nil => exact .refl g
    | cons p rest =>
      rw [takePosts]
      split
      case isTrue => exact .refl g
      case isFalse hf =>
        have ho : Refines A d _ := .of_step g ((Becomes.refl g.sound).enqueue _ false)
          (.posted p (Fair.room fair hf) notifies)
        exact ho.trans (ih ho.good (ho.fair fair) rest)

def gather (d : Driver) (s : Surroundings) : Driver :=
  let d := expireTimers s.now d.config.eventsPerTurn d
  let d := (s.work.take d.config.eventsPerTurn).foldl takeWork d
  takePosts d.config.eventsPerTurn s.posts d

lemma gather_refines (g : d.Good) (fair : d.books.Fair A) (notifies : A.notifies)
    (mine : ∀ work ∈ s.work, work.op.owner = d.owner) : Refines A d (d.gather s) := by
  rw [gather]
  have hi := expireTimers_refines g fair notifies s.now d.config.eventsPerTurn
  generalize expireTimers s.now d.config.eventsPerTurn d = d₁ at hi
  have hw : Refines A d₁ ((s.work.take d₁.config.eventsPerTurn).foldl takeWork d₁) :=
    takeWorks_refines hi.good fun work hm => (mine work (mem_of_mem_take hm)).trans hi.owner.symm
  have ha := hi.trans hw
  generalize (s.work.take d₁.config.eventsPerTurn).foldl takeWork d₁ = d₂ at ha
  exact ha.trans (takePosts_refines ha.good (ha.fair fair) notifies d₂.config.eventsPerTurn s.posts)

lemma collect_refines (g : d.Good) (fair : d.books.Fair A) (notifies : A.notifies) (delivers : A.delivers)
    (mine : ∀ work ∈ s.work, work.op.owner = d.owner) (capacity : ℕ) :
    Refines A d (d.collect s capacity).1 := by
  have hg := gather_refines g fair notifies mine
  exact hg.trans (drain_refines hg.good delivers)

def Discovers (d : Driver) (s : Surroundings) : Prop :=
  d.buffered .native = 0 ∧ ((!d.queued.isEmpty || !s.posterEmpty || !s.portEmpty) = false ∨ d.nativePending ≠ 0)

instance (d : Driver) (s : Surroundings) : Decidable (d.Discovers s) := inferInstanceAs (Decidable (_ ∧ _))

lemma discover_rule (P : Driver → Prop) (g : d.Good) (timeout : Timeout) {s : Surroundings}
    (noted : ∀ d' : Driver, (∀ A, Refines A d d') → P d')
    (batch : d.Discovers s → ∀ d' : Driver, (∀ A, Refines A d d') → P (s.events.foldl (acceptEvent s.attached) d')) :
    P (d.discover timeout s).1 := by
  rw [discover]
  split
  case isTrue hp => exact poll_rule P g noted (batch hp)
  case isFalse => exact noted d fun _ => .refl g

lemma turn_rule (P : Driver → List Completion → Prop) (timeout : Timeout) (capacity : ℕ) (s : Surroundings)
    (start : P d []) (expires : ∀ d now cancelled, P d [] → P (expireConnects d now cancelled).1 [])
    (discovers : ∀ d₁, s.validated = .ok () → d.expireConnects s.start s.cancelledAtStart = (d₁, .ok ()) → P d₁ [] →
      P (d₁.discover timeout s).1 [])
    (collects : ∀ d, P d [] → P (collect d s capacity).1 (collect d s capacity).2) :
    P (d.turn timeout capacity s).1 (d.turn timeout capacity s).2.2 := by
  rw [turn]
  cases hv : s.validated with
  | error => exact start
  | ok _ =>
    have h₁ := expires d s.start s.cancelledAtStart start
    cases he : d.expireConnects s.start s.cancelledAtStart with
    | mk d₁ res₁ =>
      rw [he] at h₁
      cases res₁ with
      | error => exact h₁
      | ok _ =>
        have h₂ := discovers d₁ hv he h₁
        simp only
        cases hd : d₁.discover timeout s with
        | mk d₂ res₂ =>
          rw [hd] at h₂
          cases res₂ with
          | error => exact h₂
          | ok =>
            have h₃ := expires d₂ s.now s.cancelledAfterPoll h₂
            simp only
            cases he' : d₂.expireConnects s.now s.cancelledAfterPoll with
            | mk d₃ res₃ =>
              rw [he'] at h₃
              cases res₃ with
              | error => exact h₃
              | ok =>
                have h₄ := collects d₃ h₃
                simp only
                cases hc : d₃.collect s capacity with
                | mk =>
                  rw [hc] at h₄
                  simp only
                  split <;> exact h₄

end Driver

end Turnloop
