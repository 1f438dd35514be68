import Turnloop.Mongodb.Settlement

/-! Whole histories of a connection. -/

namespace Turnloop.Mongodb

open Lib Lib.Program ConnectionEvent List Multiset

variable {α : Type} {t : ℕ}

namespace Connection

variable {W : Wire} {c c' c₀ : Connection W}

lemma started_step (h : Coherent c) (h' : c' = c ∨ (c.token = none ∧ Staged c c')) : Step false c c' := by
  rcases h' with rfl | ⟨hn, hs⟩
  · exact .refl h
  · exact hs.step hn

lemma connected_step (hc : Coherent c) {nonce : String} : Safe (Step false c) (connected now nonce) c :=
  Post.mono (connected_safe hc now nonce) (fun _ _ h => started_step hc h) fun _ _ h => ⟨h.1, started_step hc h.2⟩

lemma tlsEstablished_step (hc : Coherent c) : Safe (Step false c) tlsEstablished c :=
  Post.mono (tlsEstablished_safe hc) (fun _ _ h => started_step hc h) fun _ _ h => ⟨h.1, started_step hc h.2⟩

lemma Step.sends (hc : Coherent c) (tx : Bytes) (txAt : ℕ) : Step false c { c with tx := tx, txAt := txAt } :=
  ⟨{ hc with }, ⟨List.Perm.refl _, fun _ he _ _ => .inl he, fun h => h⟩, fun _ ht => ⟨ht, by simp [Holding]⟩⟩

lemma acknowledge_safe (hc : Coherent c) (hs : c.state = .unackSending) : Safe (Step false c) acknowledge c := by
  have ho : c.token.isSome = true := hc.asked (by simp [Idle, hs]) (by simp [hs])
  refine Post.get (Safe.unwrap_bind ho fun token hn => Post.modify ?_)
  refine ⟨⟨fun _ => rfl, fun hi => ?_, by simp, by simp, by simp⟩, ⟨?_, ?_, ?_⟩, by simp⟩
  · simp [Idle] at hi
  · simp [settles, hn]
  · intro e he t' ht'
    rcases List.mem_append.mp he with he | he
    · exact Or.inl he
    · rw [List.mem_singleton.mp he, names] at ht'
      exact Or.inr (hn.trans ht')
  · intro ht t' ht'
    have ht' : .reply t' ∈ c.events := by simpa using ht'
    exact absurd (ht t' ht').2 (by simp [Holding, hs])

lemma consumeTransmit_step (hc : Coherent c) : Safe (Step false c) (consumeTransmit n) c := by
  refine Post.get (Safe.refuse_bind (Step.refl hc) fun _ => Post.put ?_)
  refine Safe.when_ (Step.sends hc c.tx _) fun _ => ?_
  refine Post.get (Post.put ?_)
  have he := Step.sends hc [] 0
  refine Safe.when_ he fun hs => ?_
  have hp : Safe (Step false { c with tx := [], txAt := 0 }) acknowledge { c with tx := [], txAt := 0 } :=
    acknowledge_safe he.coherent (of_decide_eq_true hs)
  exact Post.mono hp (fun _ _ h => he.trans h) fun _ _ h => ⟨h.1, he.trans h.2⟩

def Free (c₀ c : Connection W) : Prop :=
  c.state = .ready ∧ c.token = none ∧ c.events = c₀.events

lemma free_sendFree (c₀ : Connection W) : SendFree (Free c₀) := fun _ _ _ _ _ h => h

lemma Free.coherent (h : Free c₀ c) : Coherent c := by
  obtain ⟨he, hn, -⟩ := h
  refine ⟨fun _ => hn, fun hi => absurd ?_ hi, ?_, ?_, ?_⟩
  · simp [Idle, he]
  · intro _ hs
    simp [hn] at hs
  · intro ha
    simp [he] at ha
  · intro ha
    simp [he] at ha

lemma Free.step (h : Free c₀ c) (h₀ : Coherent c₀) (hs : c₀.state = .ready) : Step false c₀ c := by
  have hn := h₀.idle (by simp [Idle, hs])
  refine ⟨h.coherent, ⟨?_, ?_, ?_⟩, ?_⟩
  · rw [h.2.2, h.2.1, hn]
  · intro e he t _
    exact .inl (h.2.2 ▸ he)
  · intro hi t ht
    exact absurd ((hi t (h.2.2 ▸ ht)).1) (by simp [hn])
  · intro t ht
    simp [h.2.1] at ht

structure Accepted (t : ℕ) (c c' : Connection W) : Prop where
  coherent : Coherent c'
  free : c.token = none
  token : c'.token = some t
  events : c'.events = c.events
  fresh : ¬Holding c'

lemma accept_post {state : ConnectionState} (hs : state = .command ∨ state = .unackSending)
    (h₀ : c₀.token = none) (h : Free c₀ c) {err : Fault → Connection W → Prop} :
    Post (accept t now state) c (fun _ => Accepted t c₀) err := by
  refine .modify ⟨⟨?_, fun _ _ => rfl, ?_, ?_, ?_⟩, h₀, rfl, h.2.2, ?_⟩
  · intro hi
    rcases hs with rfl | rfl <;> simp [Idle] at hi
  · intro hh
    rcases hs with rfl | rfl <;> simp [Holding] at hh
  · intro ha
    rcases hs with rfl | rfl <;> simp at ha
  · intro ha
    rcases hs with rfl | rfl <;> simp at ha
  · rcases hs with rfl | rfl <;> simp [Holding]

def Accepting (t : ℕ) (m : M W Unit) (c : Connection W) : Prop :=
  Post m c (fun _ => Accepted t c) (fun fault c' => fault ≠ .panic ∧ Step false c c')

lemma Coherent.ready (hc : Coherent c) (hb : (decide (c.state ≠ .ready) || b) = false) :
    c.state = .ready ∧ c.token = none := by
  simp only [ne_eq, Bool.or_eq_false_iff, decide_eq_false_iff_not, not_not] at hb
  exact ⟨hb.1, hc.idle (by simp [Idle, hb.1])⟩

lemma command_accepting (hc : Coherent c) : Accepting t (command t body sequences now) c := by
  have hr := Step.refl hc
  refine .get (.refuse (fun _ => ⟨by simp [protocol], hr⟩) fun hb => ?_)
  obtain ⟨hy, hn⟩ := hc.ready hb
  refine .refuse (fun _ => ⟨by simp [protocol], hr⟩) fun _ => ?_
  refine .refuse (fun _ => ⟨by simp [protocol], hr⟩) fun _ => ?_
  have he := send_safe (free_sendFree c) body sequences
    (if unacknowledged body.document then Wire.moreToCome else 0) (c := c) ⟨hy, hn, rfl⟩
  refine .bind (.mono he ?_ fun _ _ h => ⟨h.1, h.2.step hc hy⟩)
  intro _ _ hf
  refine accept_post ?_ hn hf
  split_ifs
  · exact .inr rfl
  · exact .inl rfl

lemma transmitFrame_safe (h : Free c₀ c) {frame : Bytes} : Safe (Free c₀) (transmitFrame frame key) c := by
  refine .put (.tryCatch ?_)
  have he : Free c₀ { c with
      tx := withRequest frame (nextRequest c.requestId)
      requestId := nextRequest c.requestId
      expected := nextRequest c.requestId
      txAt := 0 } := h
  refine .mono (compress_safe (free_sendFree c₀) he) (fun _ _ h => h) ?_
  rintro _ _ ⟨hp, hf⟩
  exact .put (.throw ⟨hp, hf⟩)

lemma check_post {ok : α → Connection W → Prop} {err : Fault → Connection W → Prop}
    (ho : ∀ a, r = .ok a → ok a c) (he : ∀ {e}, err (.error e) c) : Post (check r : M W α) c ok err := by
  cases r with
  | ok a => exact .pure (ho a rfl)
  | error => exact .throw he

lemma commandEncoded_accepting (hc : Coherent c) {frame : Bytes} {now : ℕ} :
    Accepting t (commandEncoded t frame now) c := by
  have hr := Step.refl hc
  refine .get (.refuse (fun _ => ⟨by simp [protocol], hr⟩) fun hb => ?_)
  obtain ⟨hy, hn⟩ := hc.ready hb
  refine .bind (check_post (fun m _ => ?_) ⟨by simp, hr⟩)
  refine .refuse (fun _ => ⟨by simp [protocol], hr⟩) fun _ => ?_
  refine .refuse (fun _ => ⟨by simp [protocol], hr⟩) fun _ => ?_
  refine .refuse (fun _ => ⟨by simp [protocol], hr⟩) fun _ => ?_
  refine .refuse (fun _ => ⟨by simp [protocol], hr⟩) fun _ => ?_
  refine .bind (check_post (fun key _ => ?_) ⟨by simp, hr⟩)
  have hf : Free c c := ⟨hy, hn, rfl⟩
  refine .bind (.mono (transmitFrame_safe hf) ?_ fun _ _ h => ⟨h.1, h.2.step hc hy⟩)
  intro _ _ hf
  exact accept_post (.inl rfl) hn hf

structure Released (c c' : Connection W) : Prop where
  coherent : Coherent c'
  held : c.token.isSome = true
  token : c'.token = none
  events : c'.events = c.events

lemma readable_held (hc : Coherent c) (h : c.readable = true) : Holding c ∧ c.token.isSome = true := by
  simp only [readable, Bool.or_eq_true, Bool.and_eq_true, decide_eq_true_eq] at h
  rcases h with h | ⟨⟨h, ht⟩, -⟩
  · exact ⟨.inl h, hc.asked (by simp [Idle, h]) (by simp [h])⟩
  · exact ⟨.inr h, ht⟩

lemma releaseReply_post (hc : Coherent c) :
    Post releaseReply c (fun _ => Released c) (fun fault c' => fault ≠ .panic ∧ c' = c) := by
  refine .get (.refuse (fun _ => ⟨by simp [protocol], rfl⟩) fun hr => .modify ?_)
  obtain ⟨_, ho⟩ := readable_held hc (by simpa using hr)
  have he : (if c.state ≠ .closed then ConnectionState.ready else c.state) = .ready ∨
      (if c.state ≠ .closed then ConnectionState.ready else c.state) = .closed := by
    split_ifs with h
    · exact .inl rfl
    · exact .inr (not_not.mp h)
  refine ⟨⟨fun _ => rfl, fun hi hn => ?_, by simp, fun ha => ?_, fun ha => ?_⟩, ho, rfl, rfl⟩
  · rcases he with hs | hs
    · exact absurd (.inr (.inr (.inr (.inr hs)))) hi
    · exact absurd hs hn
  · rcases he with hs | hs <;> exact absurd (hs.symm.trans ha) (by simp)
  · rcases he with hs | hs <;> exact absurd (hs.symm.trans ha) (by simp)

lemma reply_ok (hc : Coherent c) : (∃ d, c.reply = .ok d) ↔ Holding c ∧ c.token.isSome = true := by
  unfold reply
  constructor
  · rintro ⟨d, hd⟩
    split_ifs at hd with hr
    exact readable_held hc (by simpa using hr)
  · rintro ⟨hh, ho⟩
    obtain ⟨hb, m, hm⟩ := hc.held hh ho
    have hr : c.readable = true := by
      rcases hh with hh | hh <;> simp [readable, hh, ho, hb]
    rw [hr, hm]
    exact ⟨m.body, rfl⟩

end Connection

inductive ConnectionCall
  | connected (now : ℕ) (nonce : String)
  | tlsEstablished
  | consumeTransmit (n : ℕ)
  | receive (input : Bytes)
  | releaseReply
  | command (token : ℕ) (body : RawDocument) (sequences : List (String × List RawDocument)) (now : ℕ)
  | commandEncoded (token : ℕ) (frame : Bytes) (now : ℕ)
  | handleTimeout (now : ℕ)
  | fail (error : Error)
  | close
  | pollEvent

/-- A connection with what its host knows of it. -/
structure ConnectionHistory (W : Wire) where
  conn : Connection W
  accepted : List ℕ
  released : List ℕ
  polled : List ConnectionEvent
  replied : Bool
  panicked : Bool

namespace ConnectionHistory

open Connection

variable {W : Wire} (h : ConnectionHistory W) {h' : ConnectionHistory W} {call : ConnectionCall}

def start (options : ConnectionOptions) : ConnectionHistory W := ⟨Connection.new options, [], [], [], false, false⟩

def isPanic {α : Type} : Except Fault α → Bool
  | .error .panic => true
  | _ => false

def after {α : Type} (r : Except Fault α × Connection W) : ConnectionHistory W :=
  { h with conn := r.2, panicked := h.panicked || isPanic r.1 }

def accepting (token : ℕ) (r : Except Fault Unit × Connection W) : ConnectionHistory W :=
  match r.1 with
  | .ok _ => { h with conn := r.2, accepted := h.accepted ++ [token], replied := false }
  | .error _ => h.after r

def releasing (r : Except Fault Unit × Connection W) : ConnectionHistory W :=
  match r.1 with
  | .ok _ => { h with conn := r.2, released := h.released ++ h.conn.token.toList }
  | .error _ => h.after r

def exec : ConnectionCall → ConnectionHistory W
  | .connected now nonce => h.after (connected now nonce h.conn)
  | .tlsEstablished => h.after (tlsEstablished h.conn)
  | .consumeTransmit n => h.after (consumeTransmit n h.conn)
  | .receive input =>
    { h.after (receive input h.conn) with replied := h.replied || announced h.conn (receive input h.conn).2 }
  | .releaseReply => h.releasing (releaseReply h.conn)
  | .command token body sequences now => h.accepting token (command token body sequences now h.conn)
  | .commandEncoded token frame now => h.accepting token (commandEncoded token frame now h.conn)
  | .handleTimeout now => { h with conn := h.conn.handleTimeout now }
  | .fail error => { h with conn := h.conn.fail error }
  | .close => { h with conn := h.conn.close }
  | .pollEvent => { h with conn := h.conn.pollEvent.1, polled := h.polled ++ h.conn.pollEvent.2.toList }

def run (calls : List ConnectionCall) : ConnectionHistory W := calls.foldl exec h

inductive Moved (h : ConnectionHistory W) : ConnectionCall → ConnectionHistory W → Prop
  | step {call : ConnectionCall} {came : Bool} {c : Connection W} (hstep : Step came h.conn c) :
    Moved h call { h with conn := c, replied := h.replied || came }
  | accept {call : ConnectionCall} {t : ℕ} {c : Connection W} (haccepted : Accepted t h.conn c) :
    Moved h call { h with conn := c, accepted := h.accepted ++ [t], replied := false }
  | release {c : Connection W} (hreleased : Released h.conn c) :
    Moved h .releaseReply { h with conn := c, released := h.released ++ h.conn.token.toList }
  | poll : Moved h .pollEvent { h with conn := h.conn.pollEvent.1, polled := h.polled ++ h.conn.pollEvent.2.toList }

variable {h}

lemma Moved.quiet (hp : Step false h.conn c) : Moved h call { h with conn := c } := by
  have hm : Moved h call _ := Moved.step hp
  rwa [Bool.or_false] at hm

lemma after_error (hr : r.1 ≠ .error .panic) : h.after r = { h with conn := r.2 } := by
  have hc : isPanic r.1 = false := by
    rcases r with ⟨_ | f, c⟩
    · rename_i f
      cases f with
      | panic => exact absurd rfl hr
      | error => rfl
    · rfl
  rw [after, hc, Bool.or_false]

lemma after_moved (hm : Safe (Step false h.conn) m h.conn) : Moved h call (h.after (m h.conn)) := by
  unfold Safe Post at hm
  rcases hr : m h.conn with ⟨r, c⟩
  rw [hr] at hm
  cases r with
  | ok =>
    rw [after_error (by simp)]
    exact .quiet hm
  | error =>
    rw [after_error (by simpa using hm.1)]
    exact .quiet hm.2

lemma accepting_moved (hm : Accepting t m h.conn) : Moved h call (h.accepting t (m h.conn)) := by
  unfold Accepting Post at hm
  unfold ConnectionHistory.accepting
  rcases hr : m h.conn with ⟨r, c⟩
  rw [hr] at hm
  cases r with
  | ok => exact .accept hm
  | error =>
    rw [after_error (by simpa using hm.1)]
    exact .quiet hm.2

lemma receive_moved (hc : Coherent h.conn) : Moved h (.receive input) (h.exec (.receive input)) := by
  have hm := receive_safe hc input
  change Moved h _
    { h.after (receive input h.conn) with replied := h.replied || announced h.conn (receive input h.conn).2 }
  unfold Safe Post at hm
  rcases hr : receive input h.conn with ⟨r, c⟩
  rw [hr] at hm
  cases r with
  | ok =>
    rw [after_error (by simp)]
    exact .step hm
  | error =>
    rw [after_error (by simpa using hm.1)]
    exact .step hm.2

lemma release_moved (hc : Coherent h.conn) : Moved h .releaseReply (h.exec .releaseReply) := by
  have hm := releaseReply_post hc
  change Moved h _ (h.releasing (releaseReply h.conn))
  unfold Post at hm
  unfold ConnectionHistory.releasing
  rcases hr : releaseReply h.conn with ⟨r, c⟩
  rw [hr] at hm
  cases r with
  | ok => exact .release hm
  | error =>
    obtain ⟨hp, rfl⟩ := hm
    rw [after_error (by simpa using hp)]
    exact .quiet (.refl hc)

lemma exec_moved (hc : Coherent h.conn) (call : ConnectionCall) : Moved h call (h.exec call) := by
  cases call with
  | connected now nonce => exact after_moved (connected_step hc)
  | tlsEstablished => exact after_moved (tlsEstablished_step hc)
  | consumeTransmit n => exact after_moved (consumeTransmit_step hc)
  | receive input => exact receive_moved hc
  | releaseReply => exact release_moved hc
  | command token body sequences now => exact accepting_moved (command_accepting hc)
  | commandEncoded token frame now => exact accepting_moved (commandEncoded_accepting hc)
  | handleTimeout now => exact .quiet (handleTimeout_step hc)
  | fail error => exact .quiet (fail_step hc error)
  | close => exact .quiet (close_step hc)
  | pollEvent => exact .poll

lemma pollEvent_log (c : Connection W) : c.pollEvent.2.toList ++ c.pollEvent.1.events = c.events := by
  cases he : c.events <;> simp [pollEvent, he]

structure Correct (h : ConnectionHistory W) : Prop where
  coherent : Coherent h.conn
  books : h.accepted.Perm (h.released ++ (h.polled ++ h.conn.events).filterMap settles ++ h.conn.token.toList)
  replied : ∀ t, h.conn.token = some t → (h.replied = true ↔ Holding h.conn)
  calm : h.panicked = false

lemma Moved.correct (hm : Moved h call h') (hc : Correct h) : Correct h' := by
  have hb := hc.books
  cases hm with
  | step hp =>
    refine ⟨hp.coherent, ?_, fun t ht => ?_, hc.calm⟩
    · simp only [filterMap_append, append_assoc] at hb ⊢
      exact hb.trans ((hp.settles.books.symm.append_left _).append_left _)
    · obtain ⟨ht, hh⟩ := hp.kept t ht
      rw [Bool.or_eq_true, hh, hc.replied t ht, or_comm]
  | accept ha =>
    refine ⟨ha.coherent, ?_, fun t' _ => by simp [ha.fresh], hc.calm⟩
    rw [ha.free, Option.toList_none, append_nil] at hb
    rw [ha.token, ha.events]
    exact hb.append_right _
  | release hr =>
    refine ⟨hr.coherent, ?_, fun t ht => absurd (hr.token.symm.trans ht) (by simp), hc.calm⟩
    rw [hr.token, hr.events, Option.toList_none, append_nil]
    refine hb.trans ?_
    rw [append_assoc, append_assoc]
    exact perm_append_comm.append_left _
  | poll =>
    refine ⟨⟨hc.coherent.idle, hc.coherent.asked, hc.coherent.held, hc.coherent.auth, hc.coherent.speculated⟩, ?_,
      hc.replied, hc.calm⟩
    rw [append_assoc h.polled, pollEvent_log]
    exact hb

lemma Correct.exec (hc : Correct h) (call : ConnectionCall) : Correct (h.exec call) :=
  (exec_moved hc.coherent call).correct hc

lemma Correct.run (hc : Correct h) (calls : List ConnectionCall) : Correct (h.run calls) := by
  induction calls generalizing h with
  | nil => exact hc
  | cons call calls ih => exact ih (hc.exec call)

lemma start_correct (options : ConnectionOptions) : Correct (start options : ConnectionHistory W) := by
  refine ⟨⟨fun _ => rfl, fun hi => absurd (.inl rfl) hi, fun _ hs => ?_, fun ha => ?_, fun ha => ?_⟩,
    List.Perm.refl _, fun t ht => ?_, rfl⟩
  · cases hs
  · cases ha
  · cases ha
  · cases ht

/-- The host releases a reply only once no reply waits to be polled. -/
def Patient (h : ConnectionHistory W) : List ConnectionCall → Prop
  | [] => True
  | call :: calls =>
    (call = .releaseReply → ∀ t, .reply t ∉ h.conn.events) ∧ Patient (h.exec call) calls

lemma Moved.tidy (hm : Moved h call h') (hp : call = .releaseReply → ∀ t, .reply t ∉ h.conn.events)
    (hi : Tidy h.conn) : Tidy h'.conn := by
  cases hm with
  | step he => exact he.settles.tidy hi
  | accept ha =>
    intro t ht
    have ht : .reply t ∈ h.conn.events := ha.events ▸ ht
    exact absurd (ha.free.symm.trans (hi t ht).1) (by simp)
  | release hr =>
    intro t ht
    exact absurd (hr.events ▸ ht) (hp rfl t)
  | poll =>
    intro t ht
    exact hi t (pollEvent_log h.conn ▸ mem_append_right _ ht)

lemma run_tidy (hc : Correct h) (hi : Tidy h.conn) (hp : Patient h calls) : Tidy (h.run calls).conn := by
  induction calls generalizing h with
  | nil => exact hi
  | cons call calls ih =>
    have hm := exec_moved hc.coherent call
    exact ih (hc.exec call) (hm.tidy hp.1 hi) hp.2

/-- The accepted commands that neither a release nor an event the host has seen has settled. -/
def owed (h : ConnectionHistory W) : Multiset ℕ := ↑h.accepted - ↑(h.released ++ h.polled.filterMap settles)

lemma Correct.owed_eq (hc : Correct h) : h.owed = ↑(h.conn.events.filterMap settles ++ h.conn.token.toList) := by
  have hb : (h.accepted : Multiset ℕ) = _ := coe_eq_coe.mpr hc.books
  rw [owed, hb, filterMap_append, append_assoc, append_assoc, ← append_assoc, ← coe_add, add_tsub_cancel_left]

lemma named_owed (hc : Correct h) (hi : Tidy h.conn) (he : e ∈ h.conn.events) (ht : e.names = some t) : t ∈ h.owed := by
  rw [hc.owed_eq, mem_coe, mem_append]
  cases e with
  | reply t' =>
    obtain rfl : t' = t := by simpa [names] using ht
    exact .inr (by simp [(hi t' he).1])
  | unacknowledged | failed => exact .inl (mem_filterMap.mpr ⟨_, he, ht⟩)
  | upgradeTls | ready | closed => cases ht

lemma Moved.named (hm : Moved h call h') (he : e ∈ h'.conn.events) (ht : e.names = some t) :
    e ∈ h.conn.events ∨ h.conn.token = some t := by
  cases hm with
  | step hp => exact hp.settles.named e he t ht
  | accept ha => exact .inl (ha.events ▸ he)
  | release hr => exact .inl (hr.events ▸ he)
  | poll => exact .inl (pollEvent_log h.conn ▸ mem_append_right _ he)

lemma token_isSome_iff (hc : Coherent c) :
    c.token.isSome = true ↔ (c.state = .command ∨ c.state = .unackSending ∨ c.state = .reply) ∨
      (c.state = .closed ∧ ∃ d, c.reply = .ok d) := by
  constructor
  · intro ho
    have hb : ¬Idle c := fun hi => by simp [hc.idle hi] at ho
    rw [reply_ok hc]
    cases hs : c.state <;> simp_all [Idle, Holding]
  · rintro ((hs | hs | hs) | ⟨-, hr⟩)
    · exact hc.asked (by simp [Idle, hs]) (by simp [hs])
    · exact hc.asked (by simp [Idle, hs]) (by simp [hs])
    · exact hc.asked (by simp [Idle, hs]) (by simp [hs])
    · exact ((reply_ok hc).mp hr).2

lemma Correct.outstanding (hc : Correct h) : h.conn.token.isSome = true ↔
      h.accepted.length ≠ h.released.length + ((h.polled ++ h.conn.events).filterMap settles).length := by
  have hl := hc.books.length_eq
  rw [length_append, length_append] at hl
  cases ht : h.conn.token with
  | none => simp_all
  | some => simp [hl, ht]

theorem commands_settled_once (options : ConnectionOptions) (calls : List ConnectionCall) :
    let h : ConnectionHistory W := (start options).run calls
    (h.accepted.Perm (h.released ++ (h.polled ++ h.conn.events).filterMap settles ++ h.conn.token.toList)) ∧
    (∀ call, ∀ e ∈ (h.exec call).conn.events, ∀ t, e.names = some t → e ∈ h.conn.events ∨ h.conn.token = some t) ∧
    (Patient (start options : ConnectionHistory W) calls → ∀ e ∈ h.conn.events, ∀ t, e.names = some t → t ∈ h.owed) ∧
    (h.conn.token.isSome = true ↔ (h.conn.state = .command ∨ h.conn.state = .unackSending ∨ h.conn.state = .reply) ∨
      (h.conn.state = .closed ∧ ∃ d, h.conn.reply = .ok d)) ∧
    h.panicked = false ∧
    ((∃ d, h.conn.reply = .ok d) ↔ h.replied = true ∧
      h.accepted.length ≠ h.released.length + ((h.polled ++ h.conn.events).filterMap settles).length) := by
  intro h
  have hc : Correct h := (start_correct options).run calls
  refine ⟨hc.books, fun call e he t ht => (exec_moved hc.coherent call).named he ht, fun hp e he t ht => ?_,
    token_isSome_iff hc.coherent, hc.calm, ?_⟩
  · have hi : Tidy h.conn := run_tidy (start_correct options) (fun _ ht => by cases ht) hp
    exact named_owed hc hi he ht
  · rw [reply_ok hc.coherent, ← hc.outstanding]
    refine and_congr_left fun ho => ?_
    obtain ⟨t, ht⟩ := Option.isSome_iff_exists.mp ho
    exact (hc.replied t ht).symm

-- A server whose messages are headers, each standing for one good reply.
def header (id responseTo : ℕ) : Bytes := Wire.le32 16 ++ Wire.le32 id ++ Wire.le32 responseTo ++ Wire.le32 2013

def pong : RawDocument := ⟨[("ok", .int32 1), ("maxWireVersion", .int32 21)], 44⟩

def headers : Wire where
  parse bytes _ := (Wire.i32At bytes 8).map fun responseTo => ⟨responseTo, 0, pong, []⟩
  encode id _ _ _ _ := .ok (header id.toNat 0)
  raw d := some ⟨d, 0⟩
  deflate := .ok
  inflate bytes size := some (bytes, bytes.length = size)
  Scram := Unit
  scramNew _ _ _ := .ok ()
  scramStart _ _ _ := ((), [])
  scramReceive _ _ _ := .ok ((), none)
  version := "1"
  os := "unix"

def plain : ConnectionOptions := ⟨none, false, none, 0, 0, []⟩

def ping (token request : ℕ) : List ConnectionCall :=
  [.command token ⟨[("ping", .int32 1), ("$db", .string "admin")], 30⟩ [] 0, .consumeTransmit 16,
    .receive (Wire.le32 16), .receive ((header request request).drop 4)]

def pinged : List ConnectionCall :=
  [.connected 0 "", .consumeTransmit 16, .receive (Wire.le32 16), .receive ((header 1 1).drop 4), .pollEvent] ++
    ping 7 2

def pingedTwice : List ConnectionCall := pinged ++ [ConnectionCall.pollEvent, .releaseReply] ++ ping 8 3

lemma pingedTwice_patient : Patient (start plain : ConnectionHistory headers) pingedTwice := by
  have hp : (((start plain : ConnectionHistory headers).run
    (pinged ++ [ConnectionCall.pollEvent])).conn.events.isEmpty) = true := by
    decide +kernel
  refine ⟨by simp, by simp, by simp, by simp, by simp, by simp, by simp, by simp, by simp, by simp, fun _ t ht => ?_,
    by simp, by simp, by simp, by simp, trivial⟩
  exact not_mem_nil (List.isEmpty_iff.mp hp ▸ ht)

theorem commands_settled_once_ping :
    Patient (start plain : ConnectionHistory headers) pingedTwice ∧
    ((start plain : ConnectionHistory headers).run pingedTwice).conn.events.filterMap names = [8] ∧
    8 ∈ ((start plain : ConnectionHistory headers).run pingedTwice).owed := by
  have hv : ((start plain : ConnectionHistory headers).run pingedTwice).conn.events.filterMap names = [8] := by
    decide +kernel
  refine ⟨pingedTwice_patient, hv, ?_⟩
  obtain ⟨e, he, ht⟩ := List.mem_filterMap.mp (hv ▸ List.mem_singleton_self 8)
  exact (commands_settled_once plain pingedTwice).2.2.1 pingedTwice_patient e he 8 ht

theorem released_reply_announced :
    let h : ConnectionHistory headers := (start plain).run (pinged ++ [ConnectionCall.releaseReply])
    h.released = [7] ∧ h.conn.pollEvent.2.bind names = some 7 ∧ 7 ∉ h.owed := by
  decide +kernel

end ConnectionHistory

end Turnloop.Mongodb
