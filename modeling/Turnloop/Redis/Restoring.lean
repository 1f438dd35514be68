import Turnloop.Redis.Histories

/-! How a connection gets its subscriptions back. -/

namespace Turnloop.Redis

open Lib Lib.Program List

inductive Answer where
  | confirmed (push : Bool) (count : ℤ)
  | refused (message : Bytes)

def confirmation (kind : Kind) : Bytes := ascii (if kind = .Subscribe then "subscribe" else "psubscribe")

/-- The frame of the server's answer to one of the commands of `restore`. -/
def Answer.value {F64 : Type} (kind : Kind) (item : Bytes) : Answer → Value F64
  | .confirmed push count =>
    let items := [.bulk (confirmation kind), .bulk item, .integer count]
    if push then .push items else .array items
  | .refused message => .error message

def Answer.confirms : Answer → Bool
  | .confirmed _ _ => true
  | .refused _ => false

namespace Connection

variable {D : Doubles} {c : Connection D} {kind : Kind} {item : Bytes} {left : List (Kind × Bytes)}

def asked (c : Connection D) : List (Kind × Bytes) :=
  if c.config.autoResubscribe then c.channels.map (.Subscribe, ·) ++ c.patterns.map (.Psubscribe, ·) else []

def resubscriptions (asked : List (Kind × Bytes)) : List Pending := asked.map fun a => resubscription a.1 a.2

def answers (given : List ((Kind × Bytes) × Answer)) : M D Unit := forM given fun a => frame (a.2.value a.1.1 a.1.2)

/-- The commands of `restore` that are left to be answered. -/
structure Restoring (c : Connection D) (left : List (Kind × Bytes)) : Prop where
  state : c.state = .Handshake
  handshake : c.handshake = .Restore
  subscriber : c.subscriber = true
  pending : c.pending = resubscriptions left
  known : ∀ a ∈ left, a.1 = .Subscribe ∧ a.2 ∈ c.channels ∨ a.1 = .Psubscribe ∧ a.2 ∈ c.patterns

lemma Restoring.frame_answer (h : c.Restoring ((kind, item) :: left)) (answer : Answer) :
    frame (answer.value kind item) c = (.ok (),
    if left = [] ∧ answer.confirms =
      true then ready { c with pending := [] } else { c with pending := resubscriptions left }) := by
  have hg (kind : Kind) (hk : kind = .Subscribe ∨ kind = .Psubscribe) : Kind.of (confirmation kind) = kind ∧
      confirmation kind ≠ ascii "message" ∧ confirmation kind ≠ ascii "pmessage" := by
    rcases hk with rfl | rfl <;> decide
  have ho : 1 ≠ USIZE_MAX := by decide
  rcases h.known _ mem_cons_self with ⟨rfl, hm⟩ | ⟨rfl, hm⟩
  all_goals
    -- the remembered item keeps the connection a subscriber
    have hb := isEmpty_eq_false_iff.mpr (ne_nil_of_mem hm)
    cases answer with
    | confirmed push count =>
      cases push <;> cases left <;>
        simp [Answer.value, Answer.confirms, frame, plainFrame, h.handshake, pubsub, hg, Kind.subscription, retarget,
          resubscribed, Kind.subscribes, hm, Value.bytes, Value.integer?, acknowledged, h.state,
            h.subscriber, h.pending, ho,
          resubscriptions, resubscription, complete, refreshSubscriber, hb, Connection.answer, bind_apply, get_apply,
            modify_apply, when]
    | refused message =>
      simp [Answer.value, Answer.confirms, frame, plainFrame, h.handshake, h.subscriber, h.pending, resubscriptions,
        resubscription,
        complete, refreshSubscriber, hb, Connection.answer, bind_apply, get_apply, modify_apply, pure_apply, when]

/-- As long as an answer is missing, the connection waits with the commands that are left. -/
lemma answers_waiting {given : List ((Kind × Bytes) × Answer)} (hl : left ≠ [])
    (h : c.Restoring (given.map Prod.fst ++ left)) :
    answers given c = (.ok (), { c with pending := resubscriptions left }) := by
  unfold answers
  induction given generalizing c with
  | nil =>
    have hp : c.pending = resubscriptions left := h.pending
    rw [← hp]
    rfl
  | cons x given ih =>
    have hr : given.map Prod.fst ++ left ≠ [] := append_ne_nil_of_right_ne_nil _ hl
    have hf := Restoring.frame_answer h x.2
    rw [if_neg fun hs => hr hs.1] at hf
    rw [forM_cons, bind_apply, hf]
    exact ih ⟨h.state, h.handshake, h.subscriber, rfl, fun a ha => h.known a (mem_cons_of_mem _ ha)⟩

lemma answers_last (h : c.Restoring (given.map Prod.fst ++ [a])) (last : Answer) : answers (given ++ [(a, last)]) c =
    (.ok (), if last.confirms = true then ready { c with pending := [] } else { c with pending := [] }) := by
  have hw := answers_waiting (cons_ne_nil a []) h
  have hf := Restoring.frame_answer (c := { c with pending := resubscriptions [a] })
    ⟨h.state, h.handshake, h.subscriber, rfl, fun b hb => h.known b (mem_append_right _ hb)⟩ last
  simp only [true_and] at hf
  unfold answers at hw ⊢
  rw [forM_append, bind_apply, hw, forM_cons]
  dsimp only
  rw [bind_apply, hf]
  rfl

def restored (c : Connection D) : Connection D := resubscribe { c with handshake := .Restore }

lemma resubscribe_asked (hi : c.pending = []) :
    c.restored.pending = resubscriptions c.asked ∧
      c.restored.tx = c.tx ++ (resubscriptions c.asked).flatMap Pending.wire ∧
      c.restored.events = c.events ∧ c.restored.offline = c.offline ∧ c.restored.resp3 = c.resp3 := by
  unfold restored resubscribe asked resubscriptions
  split_ifs with ha
  · simp [hi, Function.comp_def]
  · simp [hi]

lemma resubscribe_restores (hs : c.state = .Handshake) (he : c.pending = []) (hb : c.asked ≠ []) :
    c.restored.Restoring c.asked := by
  have hu : c.config.autoResubscribe = true := by
    by_contra hu
    exact hb (if_neg hu)
  unfold restored resubscribe
  rw [asked, if_pos hu] at hb ⊢
  rw [if_pos hu]
  refine ⟨hs, rfl, ?_, ?_, fun a ha => ?_⟩
  · simpa [he] using hb
  · simp [he, resubscriptions, Function.comp_def]
  · rcases mem_append.mp ha with ha | ha
    · obtain ⟨item, hi, rfl⟩ := mem_map.mp ha
      exact .inl ⟨rfl, hi⟩
    · obtain ⟨item, hi, rfl⟩ := mem_map.mp ha
      exact .inr ⟨rfl, hi⟩

/-- The handshake of `c` leads to `restore` on `c'`: its commands and answers leave the queue of commands alone. -/
structure Enters (c c' : Connection D) : Prop where
  early : c.state = .Connecting ∨ c.state = .Tls ∨ c.state = .Handshake ∧ c.handshake ≠ .Restore
  state : c'.state = .Handshake
  pending : c'.pending = c.pending

lemma Enters.plain (h : c.state = .Connecting) : Enters c { c with state := .Handshake } := ⟨.inl h, rfl, rfl⟩

lemma Enters.idle {config : Config} {calls : List Call} (h : Enters (History.run config calls : History D).conn c) :
    c.pending = [] := by
  rw [h.pending]
  refine (History.balanced config calls).settled.idle ?_
  rcases h.early with hs | hs | hs <;> simp [Waits, hs]

lemma restore_eq (hi : c.pending = []) :
    restore c = if c.asked = [] then ready { c.restored with pending := [] } else c.restored := by
  have hp := (resubscribe_asked hi).1
  have hm : restore c = if c.restored.pending.isEmpty then ready c.restored else c.restored := rfl
  rw [hm, hp]
  by_cases ha : c.asked = []
  · rw [if_pos (by simp [ha, resubscriptions]), if_pos ha]
    have hn : c.restored.pending = [] := by rw [hp, ha]; rfl
    rw [← hn]
  · rw [if_neg (by simpa [resubscriptions] using ha), if_neg ha]

theorem restore_completes (config : Config) (calls : List Call) (c : Connection D)
    (enters : Enters (History.run config calls : History D).conn c)
    (given : List ((Kind × Bytes) × Answer)) (hgiven : given.map Prod.fst = c.asked) :
    (∀ part left, given = part ++ left → left ≠ [] →
        (answers part (restore c)).2.state = .Handshake ∧ (answers part (restore c)).2.pending ≠ []) ∧
      ((∀ last ∈ given.getLast?, last.2.confirms = true) ↔ ∃ c', answers given (restore c) = (.ok (), c') ∧
        c'.state = .Ready ∧
        c'.events = c.events ++ [.ready c.resp3] ∧ c'.pending = c.offline ∧ c'.offline = [] ∧
        c'.tx = c.tx ++ (resubscriptions c.asked).flatMap Pending.wire ++ c.offline.flatMap Pending.wire) := by
  have hidle := enters.idle
  obtain ⟨-, hx, he, ho, hr3⟩ := resubscribe_asked hidle
  have hb := restore_eq hidle
  constructor
  · rintro part left rfl hl
    rw [map_append] at hgiven
    have hl' : left.map Prod.fst ≠ [] := by simpa using hl
    have ha : c.asked ≠ [] := by simp [← hgiven, hl]
    have hr := resubscribe_restores enters.state hidle ha
    rw [← hgiven] at hr
    rw [hb, if_neg ha, answers_waiting hl' hr]
    exact ⟨hr.state, by simpa [resubscriptions] using hl⟩
  · -- the answers end in `ready` exactly when the last of them confirms
    have hd : answers given (restore c) = (.ok (), if ∀ last ∈ given.getLast?, last.2.confirms = true
        then ready { c.restored with pending := [] } else { c.restored with pending := [] }) := by
      rcases eq_nil_or_concat' given with rfl | ⟨part, ⟨a, last⟩, rfl⟩
      · rw [hb, if_pos (show c.asked = [] from hgiven.symm)]
        rfl
      · rw [map_append] at hgiven
        have ha : c.asked ≠ [] := by simp [← hgiven]
        have hr := resubscribe_restores enters.state hidle ha
        rw [← hgiven] at hr
        rw [hb, if_neg ha, answers_last hr]
        simp
    rw [hd]
    constructor
    · intro hc
      rw [if_pos hc]
      refine ⟨_, rfl, rfl, ?_, ho, rfl, ?_⟩
      · change c.restored.events ++ [Event.ready c.restored.resp3] = _
        rw [he, hr3]
      · rw [← hx, ← ho]
        rfl
    · rintro ⟨c', hc', hs, -⟩
      by_contra hn
      rw [if_neg hn] at hc'
      have hw : c.restored.state = .Handshake := by
        unfold restored resubscribe
        split_ifs <;> exact enters.state
      cases hc'
      cases hw.symm.trans hs

def plain : Doubles := ⟨ℕ, 0, 0, 0, fun _ => none⟩

def reconnecting : Config := ⟨none, none, 0, none, false, false, true, true, true, none, 10, ⟨64, 8, 2⟩⟩

/-- A host that was subscribed to `news` has reconnected. -/
def again : List Call :=
  [.connect 0, .transportConnected, .command 7 [ascii "SUBSCRIBE", ascii "news"] none,
    .receive (ascii "*3\r\n$9\r\nsubscribe\r\n$4\r\nnews\r\n:1\r\n"), .transportLost, .retry 1 (some 5), .connect 6]

def reconnected : Connection plain := { (History.run reconnecting again : History plain).conn with state := .Handshake }

theorem restore_completes_news :
    ∃ c', answers [((.Subscribe, ascii "news"), .confirmed false 1)] (restore reconnected) = (.ok (), c') ∧
      c'.state = .Ready ∧
      c'.events = reconnected.events ++ [.ready reconnected.resp3] := by
  have hs : (History.run reconnecting again : History plain).conn.state = .Connecting := by decide +kernel
  have ha : [(.Subscribe, ascii "news")] = reconnected.asked := by decide +kernel
  obtain ⟨c', hr, hy, he, -⟩ := (restore_completes reconnecting again reconnected (.plain hs)
    [((.Subscribe, ascii "news"), .confirmed false 1)] ha).2.1 fun _ hl => Option.some.inj hl ▸ rfl
  exact ⟨c', hr, hy, he⟩

/-- The server refuses to take the subscription back: nothing is left to wait for. -/
theorem restore_stalls :
    let h : History plain := History.run reconnecting (again ++ [.transportConnected, .receive (ascii "-NOPERM\r\n")])
    h.conn.state = .Handshake ∧ h.conn.handshake = .Restore ∧ h.conn.pending = [] ∧ h.conn.rx = [] := by
  decide +kernel

end Connection

end Turnloop.Redis
