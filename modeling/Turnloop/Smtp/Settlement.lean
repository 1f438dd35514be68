import Turnloop.Smtp.Transactions

/-! Every accepted message is settled once. -/

namespace Turnloop.Smtp

open Lib Program Connection List

variable {L : Library} {c c' c₀ : Connection L} {code now : ℕ} {response : Bytes} {config : Config}

namespace State

lemma opening_idle {s : State} (h : s.opening = true) : s.sending = false := by
  cases s <;> first | rfl | cases h

lemma authenticating_idle {s : State} (h : s.authenticating = true) : s.sending = false := by
  cases s <;> first | rfl | cases h

end State

lemma Command.opening_ne_data {cmd : Command} (h : cmd.opening = true) : cmd ≠ .data := by
  rintro rfl
  cases h

lemma Entry.said_calm (h : cmd ≠ .data) : (Entry.said cmd).calm = true := by
  cases cmd with
  | data => exact (h rfl).elim
  | _ => rfl

namespace Accounted

section

variable (h : Accounted c)
include h

lemma between (code : ℕ) (hs : c.state.sending = false) (hs' : c'.state.sending = false)
    (hn : c'.token = c.token) (hl : c'.log = (c.takeResponse code).log ++ es) (hb : ∀ e ∈ es, e.calm = true) :
    Accounted c' := by
  apply h.calm hs hs' hn
  · rw [hl, takeResponse, append_assoc]
  · intro e he
    rcases mem_cons.mp he with rfl | he'
    · rfl
    · exact hb e he'

lemma taken (code : ℕ) : Booked (c.takeResponse code) := by
  have hl : (c.takeResponse code).log = c.log ++ [Entry.reply code c.response] := rfl
  exact h.toBooked.calm rfl hl (by simp [Entry.calm])

lemma replied (hr : Replied (c.takeResponse code) code c.response c') : Accounted c' := by
  have hh {s : State} (hs : (c.takeResponse code).state = s) (he : s.sending = true) : ∃ p,
    Heard (c.takeResponse code) code c.response p :=
    h.heard (hs ▸ he) code
  have ht : (c.takeResponse code).state = c.state := rfl
  cases hr with
  | opened hs ho hc =>
    apply h.between code (State.opening_idle hs)
    · rcases ho with rfl | rfl | rfl <;> rfl
    · rfl
    · rfl
    · simpa using Entry.said_calm (Command.opening_ne_data hc)
  | talked hs ho hc =>
    apply h.between code
    · rcases hs with hs | hs
      · exact State.opening_idle hs.1
      · exact State.authenticating_idle hs
    · exact State.authenticating_idle ho
    · rfl
    · rfl
    · simpa using Entry.said_calm hc
  | stayed hs =>
    rw [ht] at hs
    exact h.between code (by rw [hs]; rfl) (by rw [ht, hs]; rfl) rfl (List.append_nil _).symm (by simp)
  | upgrade hs | restarted hs =>
    rw [ht] at hs
    exact h.between code (by rw [hs]; rfl) rfl rfl rfl (by simp [Entry.calm])
  | ready hs =>
    apply h.between code
    · rcases hs with hs | hs
      · exact State.opening_idle hs
      · exact State.authenticating_idle hs
    · rfl
    · rfl
    · rfl
    · simp [Entry.calm]
  | aborted =>
    apply Accounted.aborted
    exact (h.taken code).same rfl rfl
  | refused => exact Accounted.reset (h.taken code) _
  | mailPipelined hs hi =>
    obtain ⟨p, hp⟩ := hh hs rfl
    exact hp.mailPipelined hs hi
  | mailRefused =>
    apply Accounted.reset
    exact (h.taken code).same rfl rfl
  | mailAccepted hs hi hb hn hf =>
    obtain ⟨p, hp⟩ := hh hs rfl
    exact hp.mailAccepted hs hi hb hn hf
  | recipientsRefused =>
    apply Accounted.reset
    exact (h.taken code).same (by simp [takeMailError]) (by simp [takeMailError])
  | recipientsDone hs hn hf hl hb ha =>
    obtain ⟨p, hp⟩ := hh hs rfl
    exact hp.recipientsDone hs hn hf hl hb ha
  | recipientPipelined hs hn hf hm hi =>
    obtain ⟨p, hp⟩ := hh hs rfl
    exact hp.recipientPipelined hs hn hf hm hi
  | recipientNext hs hn hf hm hi hx =>
    obtain ⟨p, hp⟩ := hh hs rfl
    exact hp.recipientNext hs hn hf hm hi hx
  | bodyOpened hs hd =>
    subst hd
    obtain ⟨p, hp⟩ := hh hs rfl
    exact hp.bodyOpened hs _
  | bodyWritten hs hd =>
    subst hd
    obtain ⟨p, hp⟩ := hh hs rfl
    exact hp.bodyWritten hs _
  | completed hs hd hk hn =>
    subst hd
    obtain ⟨p, hp⟩ := hh hs rfl
    exact hp.completed hs hk hn
  | restored hs =>
    rw [ht] at hs
    exact h.between code (by rw [hs]; rfl) rfl rfl (List.append_nil _).symm (by simp)
  | left hs =>
    rw [ht] at hs
    obtain ⟨_, hg, hq⟩ := closeTransport_log (c.takeResponse code)
    exact h.between code (by rw [hs]; rfl) (by rw [closeTransport_state]; rfl) (by rw [closeTransport_token]; rfl) hg hq

lemma inert (hs : c'.state = c.state) (hn : c'.token = c.token)
    (he : c'.envelope = c.envelope) (ha : c'.accepted = c.accepted) (hr : c'.rejected = c.rejected)
    (hi : c'.recipientIndex = c.recipientIndex) (ho : c'.mailError = c.mailError)
    (hc : c'.capabilities = c.capabilities) (hl : c'.log = c.log ++ es) (hb : ∀ e ∈ es, e.calm = true)
    (hf : progress c'.log = progress c.log) : Accounted c' where
  toBooked := h.toBooked.calm hn hl hb
  idle hidle := by
    rw [hs] at hidle
    rw [hn, hf]
    exact h.idle hidle
  busy hbusy := by
    rw [hs] at hbusy
    obtain ⟨p, hp, hu⟩ := h.busy hbusy
    refine ⟨p, hf.trans hp, hn.trans hu.token, he.trans hu.envelope, hu.nonempty, ?_⟩
    cases hu.stage with
    | mail hs' hg he' hi' ha' hr' =>
      exact .mail (hs.trans hs') hg (ho.trans he') (hi.trans hi') (ha.trans ha')
        (hr.trans hr') (by rwa [hc])
    | recipients hs' hg hh =>
      exact .recipients (hs.trans hs') hg (hh.trans hi.symm) (by rwa [hi]) (by rwa [ho])
        (by rwa [ho, ha]) (by rwa [ho, hr]) (by rwa [hc, hi])
    | data hs' hg hd ha' hr' hw =>
      exact .data (hs.trans hs') hg hd (ha.trans ha') (hr.trans hr') hw
    | body hs' hg hd ha' hr' hw =>
      exact .body (hs.trans hs') hg hd (ha.trans ha') (hr.trans hr') hw

lemma not_sending (hn : c.token = none) : c.state.sending = false := by
  by_contra hs
  obtain ⟨p, _, hc⟩ := h.busy (Bool.eq_true_of_not_eq_false hs)
  exact nomatch hn.symm.trans hc.token

lemma moved (hm : Moved c c') : Accounted c' := by
  cases hm with
  | aside =>
    exact h.inert rfl rfl rfl rfl rfl rfl rfl rfl (append_nil _).symm (by simp) rfl
  | connected hs => exact h.calm (by rw [hs]; rfl) rfl rfl (append_nil _).symm (by simp)
  | wrapped hs | unwrapped hs | reset hs | quit hs => exact h.calm (by rw [hs]; rfl) rfl rfl rfl (by simp [Entry.calm])
  | upgraded hs =>
    exact h.calm (by rw [hs]; rfl) rfl rfl c.secured_ehlo_log (by simp [Entry.calm])
  | piece | line | excess => exact h.inert rfl rfl rfl rfl rfl rfl rfl rfl rfl (by simp [Entry.calm]) progress_concat
  | answered hc hd hr => exact h.replied hr
  | intruded hc hd hr => exact .aborted (h.replied hr).toBooked _
  | aborted => exact .aborted h.toBooked _
  | closed hn =>
    obtain ⟨_, hl, he⟩ := closeTransport_log c
    exact h.calm (h.not_sending hn) (by rw [closeTransport_state]; rfl) closeTransport_token hl he
  | wrote hs => exact h.wrote hs

lemma moves (hm : Moves c c') : Accounted c' := by
  induction hm with
  | refl => exact h
  | tail _ hv ih => exact ih.moved hv

end

lemma of_new (h : Connection.new config = .ok c) : Accounted c := by
  simp only [Connection.new] at h
  split_ifs at h
  cases h
  exact ⟨⟨rfl, .nil⟩, fun _ => ⟨rfl, rfl⟩, nofun⟩

end Accounted

namespace Current

variable {p : Progress}

lemma replyMail_isSome (h : Current c p) (code : ℕ) (response : Bytes) : (c.replyMail code response).isSome = true := by
  obtain ⟨first, hf⟩ : ∃ first, p.envelope.to_[0]? = some first := by
    cases ho : p.envelope.to_ with
    | nil => exact (h.nonempty ho).elim
    | cons first => exact ⟨first, rfl⟩
  have he : (c.mailAnswered code response).envelope = some p.envelope := h.envelope
  simp only [replyMail]
  split_ifs
  · rfl
  · split
    · rfl
    · simp [rcpt, he, hf]

lemma replyRecipients_isSome (h : Current c p) (hs : c.state = .Recipients) (code : ℕ) (response : Bytes) :
    (c.replyRecipients code response).isSome = true := by
  obtain ⟨hs', _⟩ | ⟨hs', hr, hl, hm, he, ha, hd, hw⟩ | ⟨hs', _⟩ | ⟨hs', _⟩ := h.stage
  case recipients mail rcpts =>
    simp only [replyRecipients, h.envelope, getElem?_eq_getElem hm, Option.pure_def, Option.bind_eq_bind,
      Option.bind_some, settleRecipient_index, settleRecipient_capabilities]
    split_ifs with hb
    · rfl
    · rfl
    · have hn : c.recipientIndex + 1 < p.envelope.to_.length := by omega
      simp [rcpt, h.envelope, getElem?_eq_getElem hn]
  all_goals exact absurd (hs.symm.trans hs') (by decide)

lemma openBody_isSome (h : Current c p) : c.openBody.isSome = true := by
  simp only [openBody]
  split_ifs
  · rw [h.token]
    rfl
  · rfl

end Current

lemma isSome_ite {α : Type} {b : Prop} [Decidable b] {x y : Option α} (hx : b → x.isSome = true)
    (hy : ¬ b → y.isSome = true) :
    (if b then x else y).isSome = true := by
  split_ifs with h
  · exact hx h
  · exact hy h

lemma reply_isSome (code : ℕ) (response : Bytes) (h : c.state.sending = true → ∃ p, Current c p) :
    (c.reply code response).isSome = true := by
  simp only [reply]
  apply isSome_ite (fun _ => rfl)
  intro _
  cases hs : c.state with
  | Mail =>
    obtain ⟨p, hp⟩ := h (by rw [hs]; rfl)
    exact hp.replyMail_isSome code response
  | Recipients =>
    obtain ⟨p, hp⟩ := h (by rw [hs]; rfl)
    exact hp.replyRecipients_isSome hs code response
  | Data =>
    obtain ⟨p, hp⟩ := h (by rw [hs]; rfl)
    exact isSome_ite (fun _ => hp.openBody_isSome) (fun _ => rfl)
  | Body =>
    obtain ⟨p, hp⟩ := h (by rw [hs]; rfl)
    exact isSome_ite (fun _ => by simp [complete, hp.token, hp.envelope]) (fun _ => rfl)
  | Ehlo => exact isSome_ite (fun _ => rfl) (fun _ => isSome_ite (fun _ => rfl) (fun _ => rfl))
  | Auth =>
    refine isSome_ite (fun _ => rfl) (fun _ => isSome_ite (fun _ => ?_) (fun _ => rfl))
    split <;> rfl
  | LoginUser =>
    refine isSome_ite (fun _ => ?_) (fun _ => rfl)
    split <;> rfl
  | Reset => exact isSome_ite (fun _ => isSome_ite (fun _ => rfl) (fun _ => rfl)) (fun _ => rfl)
  | Greeting | Helo | StartTls | LoginPassword | Quit => exact isSome_ite (fun _ => rfl) (fun _ => rfl)
  | Disconnected => rfl
  | Tls => rfl
  | OAuthFailure => rfl
  | Ready => rfl
  | Closed => rfl

lemma Accounted.not_panics (h : Accounted c) : ¬ Panics c := by
  rintro ⟨c₁, code, hm, hn⟩
  have h₁ := h.moves hm
  have ho := reply_isSome (c := c₁.takeResponse code) code c₁.response (fun hs => by
    obtain ⟨p, hp⟩ := h₁.heard hs code
    exact ⟨p, hp.current⟩)
  rw [hn] at ho
  cases ho

def accepts (call : Call) (c : Connection L) : Option ℕ :=
  match (call.run c).1 with
  | .ok _ => call.message
  | .error _ => none

def acceptedBy : List Call → Connection L → List ℕ
  | [], _ => []
  | call :: calls, c => (accepts call c).toList ++ acceptedBy calls (call.run c).2

lemma Accounted.called (h : Accounted c) (call : Call) : Ran c (accepts call c) (call.run c).2
    ∧ ((call.run c).1 = .error .panic → ∃ count, call = .consumeOutput count ∧ c.output.length < count) := by
  have hp := Call.run_post (c := c) call
  simp only [accepts]
  rcases hr : call.run c with ⟨r, _⟩
  rcases hp.run hr with ⟨_, rfl, ha⟩ | ⟨stop, rfl, hh | ⟨rfl, rfl, hc⟩⟩
  · exact ⟨ha, nofun⟩
  · cases stop with
    | err => exact ⟨hh, nofun⟩
    | panic => exact (h.not_panics hh).elim
  · exact ⟨.refl, fun _ => hc⟩

lemma Accounted.ran (h : Accounted c) (hr : Ran c t c') : Accounted c' := by
  cases t with
  | none => exact h.moves hr
  | some =>
    obtain ⟨_, _, hb, hg, ha⟩ := hr
    cases hg with
    | intro hs ho => exact ((h.moves hb).began hs ho).moves ha

section

variable {P : Connection L → Prop}

lemma Accounted.keeps (h : Accounted c) (hm : ∀ {c c' : Connection L}, Accounted c → P c → Moved c c' → P c')
    (hb : ∀ {c c' : Connection L} {token : ℕ}, Accounted c → P c → Began token c c' → P c') (hc : P c)
    (calls : List Call) : Accounted (c.after calls) ∧ P (c.after calls) := by
  have hv : ∀ {c c' : Connection L}, Accounted c → P c → Moves c c' → P c' := by
    intro c c' ha hp hv
    induction hv with
    | refl => exact hp
    | tail hf he ih => exact hm (ha.moves hf) ih he
  induction calls generalizing c with
  | nil => exact ⟨h, hc⟩
  | cons call calls ih =>
    have hr := (h.called call).1
    refine ih (h.ran hr) ?_
    cases hs : accepts call c with
    | none =>
      rw [hs] at hr
      exact hv h hc hr
    | some token =>
      rw [hs] at hr
      obtain ⟨c₁, c₂, hf, ht, hd⟩ := hr
      have h₁ := h.moves hf
      have h₂ : Ran c₁ (some token) c₂ := ⟨c₁, c₂, .refl, ht, .refl⟩
      exact hv (h₁.ran h₂) (hb h₁ (hv h hc hf) ht) hd

lemma after_invariant (hn : Connection.new config = .ok c₀) (hi : P ({ config } : Connection L))
    (hm : ∀ {c c' : Connection L}, Accounted c → P c → Moved c c' → P c')
    (hb : ∀ {c c' : Connection L} {token : ℕ}, Accounted c → P c → Began token c c' → P c') (calls : List Call) :
    P (c₀.after calls) := by
  have ha := Accounted.of_new hn
  simp only [Connection.new] at hn
  split_ifs at hn
  cases hn
  exact (ha.keeps hm hb hi calls).2

end

lemma Framed.begun (h : Framed Entry.outward c c') : begun c'.log = begun c.log := by
  obtain ⟨_, hl, hs⟩ := h.log
  rw [hl, Smtp.begun, Smtp.begun, filterMap_append, append_right_eq_self, filterMap_eq_nil_iff]
  intro e he
  have ho := hs e he
  cases e with
  | began => cases ho
  | _ => rfl

lemma Moved.begun (h : Moved c c') : begun c'.log = begun c.log := by
  have ha : ∀ (c : Connection L) (code : ℕ), Smtp.begun (c.takeResponse code).log = Smtp.begun c.log := by
    intro c code
    simp [takeResponse, begun_concat, Entry.begins]
  cases h with
  | aside => rfl
  | connected => rfl
  | wrapped => simp [Connection.tell, begun_concat, Entry.begins]
  | unwrapped => simp [secured, note, begun_concat, Entry.begins]
  | upgraded =>
    have he : Framed Entry.outward c.secured c.secured.ehlo := ((Framed.refl _ c.secured).setState .Ehlo).say rfl
    rw [he.begun]
    simp [secured, note, begun_concat, Entry.begins]
  | piece => simp [takePiece, begun_concat, Entry.begins]
  | line => simp [takeLine, begun_concat, Entry.begins]
  | answered hc hd hr => exact hr.framed.begun.trans (ha _ _)
  | intruded hc hd hr => exact ((hr.framed.fail _ rfl).closeTransport ⟨rfl, rfl⟩).begun.trans (ha _ _)
  | excess => simp [note, begun_concat, Entry.begins]
  | aborted => exact (((Framed.refl _ c).fail _ rfl).closeTransport ⟨rfl, rfl⟩).begun
  | closed => exact ((Framed.refl _ c).closeTransport ⟨rfl, rfl⟩).begun
  | wrote | reset => simp [say, begun_concat, Entry.begins]
  | quit => simp [say, setState, begun_concat, Entry.begins]

lemma Moves.begun (h : Moves c c') : begun c'.log = begun c.log := by
  induction h with
  | refl => rfl
  | tail _ hm ih => exact hm.begun.trans ih

lemma Began.begun {token : ℕ} (h : Began token c c') : begun c'.log = begun c.log ++ [token] := by
  cases h with
  | @intro en _ si ei =>
    have hc := firstCommands_calm en si ei c.capabilities.pipelining
    simp only [sayAll_eq, setState, startMessage, begun_calm hc, begun_concat]
    rfl

lemma Ran.begun (h : Ran c t c') : begun c'.log = begun c.log ++ t.toList := by
  cases t with
  | none =>
    rw [Option.toList_none, append_nil]
    exact Moves.begun h
  | some =>
    obtain ⟨_, _, hb, hg, ha⟩ := h
    rw [ha.begun, hg.begun, hb.begun]
    rfl

lemma Accounted.begun_after (h : Accounted c) (calls : List Call) :
    begun (c.after calls).log = begun c.log ++ acceptedBy calls c := by
  induction calls generalizing c with
  | nil => simp [Connection.after, acceptedBy]
  | cons call calls ih =>
    have hr := (h.called call).1
    have he := ih (h.ran hr)
    rw [hr.begun, append_assoc] at he
    exact he

/-- A library for examples, where bytes are their own text and their own encoding. -/
def Library.sample : Library := ⟨id, id, 2 ^ 32⟩

def Connection.sample : Connection .sample := { config := {} }

lemma sample_new : Connection.new {} = .ok Connection.sample := by
  simp only [Connection.new]
  rw [if_neg (by decide +kernel)]
  rfl

theorem messages_settled (hnew : Connection.new config = .ok c₀) (calls : List Call) :
    acceptedBy calls c₀ = settled (c₀.after calls).log ++ (c₀.after calls).token.toList
    ∧ (c₀.after calls).token.isSome = (c₀.after calls).state.sending
    ∧ (∀ (pre : List Entry) (token : ℕ) (info : SendInfo) (post : List Entry),
        (c₀.after calls).log = pre ++ .told
        (.Sent token info) :: post → ∃ p, progress pre = some p ∧ Delivered p token info)
    ∧ (∀ pre post : List Entry, (c₀.after calls).log = pre ++ .said .data :: post →
        ∃ p mail rcpts, progress pre = some p ∧ p.replies = mail :: rcpts ∧ Approved p.envelope mail rcpts)
    ∧ ∀ call : Call, (call.run (c₀.after calls)).1 = .error .panic →
        ∃ count, call = .consumeOutput count ∧ (c₀.after calls).output.length < count := by
  have ha₀ := Accounted.of_new hnew
  have ha : Accounted (c₀.after calls) :=
    (ha₀.keeps (P := fun _ => True) (fun _ _ _ => trivial) (fun _ _ _ => trivial) trivial calls).1
  have hb := ha₀.begun_after calls
  have he : begun c₀.log = [] := by
    simp only [Connection.new] at hnew
    split_ifs at hnew
    cases hnew
    rfl
  rw [he, nil_append] at hb
  refine ⟨hb.symm.trans ha.ledger, ?_, ?_, ?_, fun call => (ha.called call).2⟩
  · cases hs : (c₀.after calls).state.sending with
    | false => simp [(ha.idle hs).1]
    | true =>
      obtain ⟨p, _, hc⟩ := ha.busy hs
      simp [hc.token]
  · exact fun pre token info post hl => ha.lawful pre _ post hl
  · intro pre post hl
    obtain ⟨p, mail, rcpts, hp, _, hr, hd⟩ := ha.lawful pre _ post hl
    exact ⟨p, mail, rcpts, hp, hr, hd⟩

def letter : List Call :=
  [.connected 0, .receive (ascii "220 a\r\n") 0, .receive (ascii "250 a\r\n") 0,
    .send 7 ⟨ascii "x", [ascii "y", ascii "z"]⟩ [] (ascii "hi") 0,
    .receive (ascii "250 a\r\n250 a\r\n550 a\r\n354 a\r\n250 a\r\n") 0]

theorem messages_settled_letter :
    let c := Connection.sample.after letter
    settled c.log = [7] ∧ acceptedBy letter .sample = settled c.log ++ c.token.toList
    ∧ c.token.isSome = c.state.sending
    ∧ (∃ pre info post p, c.log = pre ++ .told (.Sent 7 info) :: post ∧ progress pre = some p ∧ Delivered p 7 info)
    ∧ (∃ pre post p mail rcpts, c.log = pre ++ .said .data :: post ∧ progress pre = some p
        ∧ p.replies = mail :: rcpts ∧ Approved p.envelope mail rcpts)
    ∧ ((Call.consumeOutput 100).run c).1 = .error .panic ∧ c.output.length < 100 := by
  intro c
  obtain ⟨ha, ht, hs, hd, hp⟩ := messages_settled sample_new letter
  have hm : .told (.Sent 7 ⟨ascii "250 a", 250, [ascii "y"], [⟨ascii "z", recipientError 550 (ascii "550 a")⟩],
      ⟨ascii "x", [ascii "y", ascii "z"]⟩, []⟩) ∈ c.log := by
    decide +kernel
  have hn : .said .data ∈ c.log := by decide +kernel
  have hf : ((Call.consumeOutput 100).run c).1 = .error .panic := by decide +kernel
  obtain ⟨pre, post, hl⟩ := append_of_mem hm
  obtain ⟨pre', post', hl'⟩ := append_of_mem hn
  obtain ⟨p, hq, hi⟩ := hs _ _ _ _ hl
  obtain ⟨p', mail, rcpts, hq', hr, hv⟩ := hd _ _ hl'
  obtain ⟨count, hc, ho⟩ := hp _ hf
  cases hc
  exact ⟨by decide +kernel, ha, ht, ⟨pre, _, post, p, hl, hq, hi⟩,
    ⟨pre', post', p', mail, rcpts, hl', hq', hr, hv⟩, hf, ho⟩

end Turnloop.Smtp
