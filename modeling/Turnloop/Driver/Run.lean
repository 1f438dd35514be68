import Turnloop.Driver.Phases

/-! Whole runs of a driver, from `Driver::new` through any calls of the host. -/

namespace Turnloop

open Lib List

def Effect.Allowed (A : Leave) : Effect → Prop
  | .appended _ => A.delivers
  | .accepted _ | .requested .. => A.issues
  | _ => True

def Fault.Allowed (A : Leave) : Fault → Prop
  | .noRoom => A.noRoom
  | .classFull | .queueFull => True
  | .underflow | .portFull => False

namespace Books

variable {A : Leave} {b b' b'' : Books}

structure Since (A : Leave) (b b' : Books) : Prop where
  trace : ∃ es, b'.trace = b.trace ++ es ∧ ∀ e ∈ es, e.Allowed A
  faults : ∃ fs, b'.faults = b.faults ++ fs ∧ ∀ f ∈ fs, f.Allowed A

namespace Since

lemma refl (b : Books) : Since A b b := ⟨⟨[], by simp⟩, ⟨[], by simp⟩⟩

lemma trans (s : Since A b b') (s' : Since A b' b'') : Since A b b'' := by
  obtain ⟨⟨es, hr, hs⟩, fs, ha, hb⟩ := s
  obtain ⟨⟨es', ht', he'⟩, fs', hf', hs'⟩ := s'
  refine ⟨⟨es ++ es', by rw [ht', hr, append_assoc], fun e he => ?_⟩, fs ++ fs',
    by rw [hf', ha, append_assoc], fun f hf => ?_⟩
  · exact (mem_append.mp he).elim (hs e) (he' e)
  · exact (mem_append.mp hf).elim (hb f) (hs' f)

lemma of_trace (trace : b'.trace = b.trace ++ es) (faults : b'.faults = b.faults) (allowed : ∀ e ∈ es, e.Allowed A) :
    Since A b b' :=
  ⟨⟨es, trace, allowed⟩, [], by rw [faults, append_nil], by simp⟩

lemma of_same (trace : b'.trace = b.trace) (faults : b'.faults = b.faults) : Since A b b' :=
  of_trace (trace.trans (append_nil _).symm) faults (by simp)

lemma push (trace : b'.trace = b.trace) (faults : b'.faults = b.faults ++ b.crowded c) : Since A b b' := by
  refine ⟨⟨[], by rw [trace, append_nil], by simp⟩, b.crowded c, faults, fun f hf => ?_⟩
  rw [crowded, mem_append] at hf
  rcases hf with hf | hf
  · split at hf
    · cases hf
    · split at hf
      · cases hf
      · obtain rfl := mem_singleton.mp hf
        trivial
  · split at hf
    · cases hf
    · obtain rfl := mem_singleton.mp hf
      trivial

end Since

lemma Step.since (step : Step A b b') : Since A b b' := by
  cases step with
  | opened | polled | closing => exact .of_trace rfl rfl (by simp [Effect.Allowed])
  | @dropped h r S remaining es live idle kept lets =>
    refine .of_trace rfl rfl fun e he => ?_
    have hl := lets e he
    cases e <;> trivial
  | tuned | flagged | took | pooled | referenced => exact .of_same rfl rfl
  | @issued h r S id o es live on unclosed first ad asks leave =>
    refine .of_trace rfl rfl fun e he => ?_
    rcases mem_append.mp he with he | he
    · obtain ⟨_, rfl, -⟩ := asks e he
      exact leave
    · obtain rfl := mem_singleton.mp he
      exact leave
  | issuedLoose loose ad leave | drained oldest open_ leave => exact .of_trace rfl rfl (by simpa
      [Effect.Allowed] using leave)
  | refused leave => exact ⟨⟨[], by simp⟩, [.noRoom], rfl, by simpa [Fault.Allowed] using leave⟩
  | notified | posted | finished | finishedLoose => exact .push rfl rfl
  | @closeQueued h r S token => exact .push (c := ⟨token, none, some h, true, .closed⟩) rfl rfl
  | @drainedClosed q rest h r S remaining oldest closes live last least most leave =>
    refine .of_trace rfl rfl fun e he => ?_
    rcases mem_cons.mp he with rfl | he
    · exact leave
    · cases hk : r.kind <;> simp only [hk, Effect.release, mem_cons, not_mem_nil, or_false] at he
      all_goals
        rcases he with rfl | rfl <;> trivial

lemma Steps.since (steps : Steps A b b') : Since A b b' := by
  induction steps with
  | refl => exact .refl _
  | tail _ step ih => exact ih.trans step.since

lemma Since.trace_sub (s : Since A b b') : b.trace ⊆ b'.trace := by
  obtain ⟨_, hr, -⟩ := s.trace
  rw [hr]
  exact subset_append_left _ _

lemma Since.delivered (delivers : ¬A.delivers) (s : Since A b b') : b'.delivered = b.delivered := by
  obtain ⟨_, hr, hs⟩ := s.trace
  rw [Books.delivered, hr, delivered_append, Books.delivered]
  intro e he
  have ha := hs e he
  cases e with
  | appended => exact absurd ha delivers
  | _ => rfl

lemma Since.accepted (issues : ¬A.issues) (s : Since A b b') {id : OpId} (hi : .accepted id ∈ b'.trace) :
    .accepted id ∈ b.trace := by
  obtain ⟨_, hr, hs⟩ := s.trace
  rw [hr, mem_append] at hi
  exact hi.resolve_right fun he => issues (hs _ he)

end Books

def Surroundings.quiet : Surroundings where
  validated := .ok ()
  notified := false
  start := 0
  cancelledAtStart := fun _ => .ok ()
  posterEmpty := true
  portEmpty := true
  parks := true
  events := []
  polled := .ok ⟨0, 0, 0⟩
  attached := fun _ => .ok ()
  now := 0
  cancelledAfterPoll := fun _ => .ok ()
  work := []
  posts := []
  parked := .ok ()
  finish := 0

def Config.small : Config := ⟨2, 2, 1, 1, 1, 1⟩

/-- The port gives back what this loop gave it: its results name operations of the loop. -/
def Call.Local (owner : ℕ) : Call → Prop
  | .turn _ _ s => ∀ work ∈ s.work, work.op.owner = owner
  | _ => True

def Reply.accepts : Reply → Bool
  | .handle (.ok _) | .op (.ok _) | .adopted (.ok _) | .process (.ok _) => true
  | _ => false

def Reply.out : Reply → List Completion
  | .turn _ out => out
  | _ => []

namespace Driver

variable {A : Leave} {d d' : Driver} {calls : List Call} {call : Call}

lemma acceptEvents_refines {events : List Event} (g : d.Good) (opens : A.opens) (take : ∀ id, A.take id)
    (noRoom : A.noRoom) (notifies : A.notifies)
    (room : A.crowd ∨ d.buffered .native + events.length ≤ d.config.eventsPerTurn)
    (attached : Handle → Result Unit) : Refines A d (events.foldl (acceptEvent attached) d) := by
  induction events generalizing d with
  | nil => exact .refl g
  | cons e rest ih =>
    have ha : Allows A d e := by
      refine ⟨fun _ => ⟨opens, take e.op⟩, .inl noRoom, fun _ => ⟨notifies, room.imp_right fun hl => ?_⟩⟩
      rw [length_cons] at hl
      omega
    have ho := acceptEvent_reported g ha attached
    refine ho.refines.trans (ih ho.refines.good (room.imp_right fun hl => ?_))
    have hc : Driver.config _ = d.config := Books.Steps.config ho.refines.steps
    have hn := ho.native
    have hb := Bool.toNat_le (!e.terminal)
    rw [length_cons] at hl
    rw [hc]
    omega

lemma turn_refines (g : d.Good) (fair : d.books.Fair A) (opens : A.opens) (take : ∀ id, A.take id) (noRoom : A.noRoom)
    (notifies : A.notifies) (delivers : A.delivers)
    (mine : ∀ work ∈ s.work, work.op.owner = d.owner) (room : A.crowd ∨ s.events.length ≤ d.config.eventsPerTurn) :
    Refines A d (d.turn timeout capacity s).1 := by
  refine turn_rule (fun d' _ => Refines A d d') timeout capacity s (.refl g)
    (fun d₁ now cancelled h₁ => h₁.trans (expireConnects_refines h₁.good now cancelled)) (fun d₁ _ _ h₁ => ?_)
    (fun d₁ h₁ => h₁.trans (collect_refines h₁.good (h₁.fair fair) notifies delivers
      (fun work hw => (mine work hw).trans h₁.owner.symm) capacity))
  refine h₁.trans (discover_rule (Refines A d₁) h₁.good timeout (fun d₂ h₂ => h₂ A) fun hp d₂ h₂ => ?_)
  have hn := Books.Steps.buffered_le (fun hf => hf) (h₂ .none).steps .native
  have hc₁ : d₁.config = d.config := Books.Steps.config h₁.steps
  have hc₂ : d₂.config = d₁.config := Books.Steps.config (h₂ .none).steps
  refine (h₂ A).trans (acceptEvents_refines (h₂ A).good opens take noRoom notifies
    (room.imp_right fun hl => ?_) s.attached)
  have he : d₁.books.buffered .native = 0 := hp.1
  have he₂ : d₂.buffered .native = 0 := Nat.le_zero.mp (he ▸ hn)
  rw [he₂, hc₂, hc₁, Nat.zero_add]
  exact hl

lemma exec_refines (g : d.Good) (opens : A.opens) (closes : A.closes)
    (issues : (d.exec call).2.accepts = true → A.issues)
    (turn : ∀ timeout capacity s, call = .turn timeout capacity s → Refines A d (d.turn timeout capacity s).1) :
    Refines A d (d.exec call).1 := by
  have ha {α : Type} {f : Result α → Reply} (hf : ∀ a, (f (.ok a)).accepts = true) {p : Driver × Result α}
      (answers : Answers d p) (hi : (p.map id f).2.accepts = true → A.issues) : Refines A d (p.map id f).1 := by
    refine answers A opens fun ho => hi ?_
    obtain ⟨_, res⟩ := p
    cases res with
    | error => cases ho
    | ok a => exact hf a
  have hh {p : Driver × Result Handle} := ha (f := Reply.handle) (p := p) fun _ => rfl
  have hp {p : Driver × Result OpId} := ha (f := Reply.op) (p := p) fun _ => rfl
  cases call with
  | setRef h referenced => exact setRef_refines g
  | timer due repeats token => exact hh (timer_answers g) issues
  | timerReset h due => exact timerReset_refines g
  | openSocket =>
    rw [exec, openSocket_eq]
    exact attach_refines g _ A opens
  | connect deadline token opened submitted => exact hh (connect_answers g deadline token opened submitted) issues
  | tcpConnect connectTimeout now token opened submitted =>
    exact hh (tcpConnect_answers g connectTimeout now token opened submitted) issues
  | tcpConnectAdopted token attached submitted =>
    exact ha (f := Reply.adopted) (fun _ => rfl) (tcpConnectAdopted_spec g token attached submitted).1 issues
  | submit h operation token submitted => exact hp (submit_submitted g h operation token submitted).answers issues
  | sendHandle pipe h token submitted => exact hp (sendHandle_submitted g pipe h token submitted).answers issues
  | spawnExtra spec slots token spawned submitted =>
    exact ha (f := Reply.process) (fun _ => rfl) (spawnExtra_answers g) issues
  | watch operation token bound submitted => exact hh (watch_answers g operation token bound submitted) issues
  | cancel op stop cancelled => exact cancelInner_refines g op stop cancelled
  | close h token prepared cancelled => exact close_refines g closes h token prepared cancelled
  | signalStop h token prepared stopped cancelled =>
    exact signalStop_refines g closes h token prepared stopped cancelled
  | detach h cancelled detached => exact detach_refines g h cancelled detached
  | attach attached => exact attach_refines g attached A opens
  | externalWait token submitted => exact hp (externalWait_submitted g).answers issues
  | submitJob token submitted => exact hp (submitJob_submitted g).answers issues
  | resolve token resolved submitted => exact hp (resolve_submitted g).answers issues
  | fs request token submitted => exact hp (fs_spec g).1 issues
  | integration answer parked => exact integration_refines g answer parked
  | turn timeout capacity s => exact turn timeout capacity s rfl

lemma exec_returned (g : d.Good) (hd : (d.exec call).2.returned = some op) : .accepted op ∈ (d.exec call).1.trace := by
  have ho {p : Driver × Result OpId} (accepted : ∀ id, p.2 = .ok id → .accepted id ∈ p.1.trace)
      (hi : (p.map id Reply.op).2.returned = some op) : .accepted op ∈ p.1.trace := by
    obtain ⟨d', res⟩ := p
    cases res with
    | error => cases hi
    | ok id' =>
      obtain rfl := Option.some.inj hi
      exact accepted id' rfl
  cases call with
  | tcpConnectAdopted token attached submitted =>
    have ha := (tcpConnectAdopted_spec g token attached submitted).2
    rw [exec] at hd ⊢
    cases hp : d.tcpConnectAdopted token attached submitted with
    | mk d' res =>
      rw [hp] at ha hd
      cases res with
      | error => cases hd
      | ok p =>
        cases hd
        exact ha p rfl
  | submit h operation token submitted => exact ho (submit_submitted g h operation token submitted).accepted hd
  | sendHandle pipe h token submitted => exact ho (sendHandle_submitted g pipe h token submitted).accepted hd
  | externalWait token submitted => exact ho (externalWait_submitted g).accepted hd
  | submitJob token submitted => exact ho (submitJob_submitted g).accepted hd
  | resolve token resolved submitted => exact ho (resolve_submitted g).accepted hd
  | fs request token submitted => exact ho (fs_spec g).2 hd
  | _ => cases hd

lemma run_rule (P : Driver → Prop) (calls : List Call) (start : P d)
    (step : ∀ d, ∀ call ∈ calls, P d → P (exec d call).1) : P (d.run calls) := by
  induction calls generalizing d with
  | nil => exact start
  | cons call rest ih =>
    exact ih (step d call mem_cons_self start) fun d' call' hm => step d' call' (mem_cons_of_mem _ hm)

lemma Refines.local_rest (p : Refines A d d') (own : ∀ call' ∈ call :: calls, call'.Local d.owner) :
    ∀ call' ∈ calls, call'.Local d'.owner := by
  intro call' hm
  rw [p.owner]
  exact own call' (mem_cons_of_mem _ hm)

lemma exec_all (g : d.Good) (own : call.Local d.owner) : Refines .all d (d.exec call).1 := by
  refine exec_refines g trivial trivial (fun _ => trivial) ?_
  rintro _ _ s rfl
  exact turn_refines g (.inl trivial) trivial (fun _ => trivial) trivial trivial trivial own
    (.inl trivial)

lemma run_refines (g : d.Good) (own : ∀ call ∈ calls, call.Local d.owner) : Refines .all d (d.run calls) := by
  refine run_rule (Refines .all d) calls (.refl g) fun d' call hm h => ?_
  exact h.trans (exec_all h.good (h.owner ▸ own call hm))

lemma exec_refused (g : d.Good) (own : call.Local d.owner) (refused : (d.exec call).2.accepts = false) :
    Refines { Leave.all with issues := False } d (d.exec call).1 := by
  refine exec_refines g trivial trivial (fun ha => ?_) ?_
  · rw [refused] at ha
    cases ha
  · rintro _ _ s rfl
    exact turn_refines g (.inl trivial) trivial (fun _ => trivial) trivial trivial trivial own
      (.inl trivial)

lemma exec_delivered (g : d.Good) (own : call.Local d.owner) : (d.exec call).1.books.delivered = d.books.delivered ++
    (d.exec call).2.out := by
  by_cases hu : ∃ timeout capacity s, call = .turn timeout capacity s
  · obtain ⟨timeout, capacity, s, rfl⟩ := hu
    have hi (d₁ d₂ : Driver) (p : Refines { Leave.all with delivers := False } d₁ d₂) :
        d₂.books.delivered = d₁.books.delivered := (Books.Steps.since p.steps).delivered fun hf => hf
    refine (turn_rule (fun d' out => Refines .all d d' ∧ d'.books.delivered = d.books.delivered ++ out)
      timeout capacity s ⟨.refl g, (append_nil _).symm⟩ ?_ ?_ ?_).2
    · rintro d₁ now cancelled ⟨h₁, hd₁⟩
      exact ⟨h₁.trans (expireConnects_refines h₁.good now cancelled),
        (hi _ _ (expireConnects_refines h₁.good now cancelled)).trans hd₁⟩
    · rintro d₁ - - ⟨h₁, hd₁⟩
      have hd (A : Leave) (opens : A.opens) (take : ∀ id, A.take id) (noRoom : A.noRoom)
          (notifies : A.notifies) (crowd : A.crowd) : Refines A d₁ (d₁.discover timeout s).1 :=
        discover_rule (Refines A d₁) h₁.good timeout (fun d₂ h₂ => h₂ A) fun _ d₂ h₂ =>
          (h₂ A).trans (acceptEvents_refines (h₂ A).good opens take noRoom notifies (.inl crowd) s.attached)
      exact ⟨h₁.trans (hd .all trivial (fun _ => trivial) trivial trivial trivial),
        (hi _ _ (hd _ trivial (fun _ => trivial) trivial trivial trivial)).trans hd₁⟩
    · rintro d₁ ⟨h₁, hd₁⟩
      have hm : ∀ work ∈ s.work, work.op.owner = d₁.owner := fun work hw => (own work hw).trans h₁.owner.symm
      have hg : Refines .all d₁ (d₁.gather s) := gather_refines h₁.good (.inl trivial) trivial hm
      have hq := hi _ _ (gather_refines h₁.good (.inl trivial) trivial hm)
      rw [show d₁.collect s capacity = (d₁.gather s).drain capacity from rfl]
      refine ⟨h₁.trans (hg.trans (drain_refines hg.good trivial)), ?_⟩
      rw [drain_delivered hg.good, hq, hd₁, append_nil]
  · have hq : Refines { Leave.all with delivers := False } d (d.exec call).1 := by
      refine exec_refines g trivial trivial (fun _ => trivial) fun timeout capacity s hc => ?_
      exact absurd ⟨timeout, capacity, s, hc⟩ hu
    have ho : (d.exec call).2.out = [] := by
      cases call with
      | turn timeout capacity s => exact absurd ⟨timeout, capacity, s, rfl⟩ hu
      | _ => rfl
    rw [(Books.Steps.since hq.steps).delivered fun hf => hf, ho, append_nil]

def outputs : Driver → List Call → List Completion
  | _, [] => []
  | d, call :: rest => (d.exec call).2.out ++ outputs (d.exec call).1 rest

def returned : Driver → List Call → List OpId
  | _, [] => []
  | d, call :: rest => (d.exec call).2.returned.toList ++ returned (d.exec call).1 rest

lemma run_delivered (g : d.Good) (own : ∀ call ∈ calls, call.Local d.owner) :
    (d.run calls).books.delivered = d.books.delivered ++ d.outputs calls := by
  induction calls generalizing d with
  | nil => exact (append_nil _).symm
  | cons call rest ih =>
    have hc := own call mem_cons_self
    have ho := exec_all g hc
    have hr := ho.local_rest own
    have ha := ih ho.good hr
    rw [exec_delivered g hc, append_assoc] at ha
    exact ha

lemma run_returned (g : d.Good) (own : ∀ call ∈ calls, call.Local d.owner) {id : OpId}
    (hi : id ∈ d.returned calls) : .accepted id ∈ (d.run calls).trace := by
  induction calls generalizing d with
  | nil => cases hi
  | cons call rest ih =>
    have ho := exec_all g (own call mem_cons_self)
    have hr := ho.local_rest own
    rw [returned, mem_append, Option.mem_toList] at hi
    rcases hi with hi | hi
    · have hs := Books.Steps.since (run_refines ho.good hr).steps
      exact hs.trace_sub (exec_returned g hi)
    · exact ih ho.good hr hi

variable {filesystem : Filesystem} {config : Config} {built : Result Unit} {next : ℕ}

structure Fresh (config : Config) (next : ℕ) (d : Driver) : Prop where
  good : d.Good
  owner : d.owner = next
  config : d.config = config
  calm : d.books.Calm
  trace : d.trace = []
  faults : d.faults = []

lemma new_fresh (hn : Driver.new filesystem config built next = .ok d) : Fresh config next d := by
  rw [Driver.new] at hn
  split at hn
  case isTrue => cases hn
  case isFalse hc =>
    push Not at hc
    obtain ⟨-, hh, -, ho, -⟩ := hc
    split at hn
    case h_1 => cases hn
    case h_2 capacity ha =>
      split at hn
      case h_1 => cases hn
      case h_2 =>
        split at hn
        case h_1 => cases hn
        case h_2 =>
          cases hn
          have hb {n m : ℕ} (hm : checkedUsize n = some m) : m = n := by
            rw [checkedUsize] at hm
            split at hm
            · exact (Option.some.inj hm).symm
            · cases hm
          obtain ⟨total, hu, hl⟩ := Option.bind_eq_some_iff.mp ha
          obtain ⟨events, he, hu⟩ := Option.bind_eq_some_iff.mp hu
          obtain rfl := hb he
          obtain rfl := hb hu
          obtain rfl := hb hl
          refine ⟨⟨⟨?_, ?_, by simp, by simp⟩, ?_⟩, rfl, rfl, ⟨?_, ?_, by simp [books], by simp [books]⟩, rfl, rfl⟩
          · exact Table.new_valid (by omega)
          · exact Table.new_valid (by omega)
          · constructor <;> try constructor
            all_goals simp [books, Driver.live, Driver.active, Table.view_new, Table.remaining_new, Keyed, tally,
              Books.Stamped, Books.Active, Books.stream,
              Books.delivered, Books.Live]
          · exact fun _ => Nat.zero_le _
          · simp only [books]
            omega

lemma Fresh.no_underflow (fresh : Fresh config next d₀) (refines : Refines A d₀ d) : .underflow ∉ d.faults := by
  obtain ⟨fs, ha, hl⟩ := (Books.Steps.since refines.steps).faults
  have hb : d.faults = d₀.faults ++ fs := ha
  rw [hb, fresh.faults, nil_append]
  exact fun hf => hl _ hf

end Driver

end Turnloop
