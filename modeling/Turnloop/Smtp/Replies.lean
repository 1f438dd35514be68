import Turnloop.Smtp.Connection

/-! What the reply of a server can do to a connection. -/

namespace Turnloop.Smtp

open Lib Program Option

variable {L : Library} {c c' : Connection L} {code : ℕ} {response : Bytes}

def Command.opening : Command → Bool
  | .ehlo _ => true
  | .helo _ => true
  | .starttls => true
  | _ => false

namespace State

def opening : State → Bool
  | .Greeting => true
  | .Ehlo => true
  | .Helo => true
  | _ => false

def authenticating : State → Bool
  | .Auth => true
  | .LoginUser => true
  | .LoginPassword => true
  | .OAuthFailure => true
  | _ => false

def sending : State → Bool
  | .Mail => true
  | .Recipients => true
  | .Data => true
  | .Body => true
  | _ => false

end State

namespace Connection

def prepared (caps : Capabilities) (raw encoded : Bytes) (c : Connection L) : Connection L :=
  { c with capabilities := caps, authRaw := raw, authEncoded := encoded }

end Connection

open Connection

inductive Replied (c : Connection L) (code : ℕ) (response : Bytes) : Connection L → Prop
  | opened {caps : Capabilities} {s : State} {cmd : Command} (hs : c.state.opening = true)
      (hto : s = .Ehlo ∨ s = .Helo ∨ s = .StartTls) (hcmd : cmd.opening = true) :
      Replied c code response (((c.prepared caps c.authRaw c.authEncoded).setState s).say cmd)
  | talked {caps : Capabilities} {raw encoded : Bytes} {s : State} {cmd : Command}
      (hs : (c.state.opening = true ∧ (c.secure = true ∨ c.config.tls ≠ .Required)) ∨ c.state.authenticating = true)
      (hto : s.authenticating = true) (hcmd : cmd ≠ .data) :
      Replied c code response (((c.prepared caps raw encoded).setState s).say cmd)
  | stayed (hs : c.state = .LoginUser) : Replied c code response c
  | upgrade (hs : c.state = .StartTls) (hcode : code =
    220) : Replied c code response ((c.setState .Tls).tell .UpgradeTls)
  | ready {caps : Capabilities} {raw : Bytes} (hs : c.state.opening = true ∨ c.state.authenticating = true)
      (hsecure : c.tlsMandatory = true → c.secure = true) :
      Replied c code response (((c.prepared caps raw c.authEncoded).setState .Ready).tell .Ready)
  | aborted {caps : Capabilities} {raw : Bytes} {e : Error} :
      Replied c code response (((c.prepared caps raw c.authEncoded).fail e).closeTransport)
  | refused {e : Error} (hs : c.state = .Data ∨ c.state = .Body) : Replied c code response (c.failAndReset e)
  | mailPipelined (hs : c.state = .Mail) (hpipe : c.capabilities.pipelining = true) :
      Replied c code response (c.mailAnswered code response)
  | mailRefused {e : Error} (hs : c.state = .Mail) (hpipe : c.capabilities.pipelining = false) :
      Replied c code response ((c.mailAnswered code response).takeMailError.failAndReset e)
  | mailAccepted {envelope : Envelope} {recipient : Bytes}
    (hs : c.state = .Mail) (hpipe : c.capabilities.pipelining = false)
      (herror : (c.mailAnswered code response).mailError = none) (henvelope : c.envelope = some envelope)
      (hrecipient : envelope.to_[0]? = some recipient) :
      Replied c code response ((c.mailAnswered code response).say (.rcpt recipient))
  | recipientsRefused {envelope : Envelope} {recipient : Bytes} {e : Error} (hs : c.state = .Recipients)
      (henvelope : c.envelope = some envelope) (hrecipient : envelope.to_[c.recipientIndex]? = some recipient) :
      Replied c code response
        ((c.settleRecipient code response recipient).takeMailError.failAndReset e)
  | recipientsDone {envelope : Envelope} {recipient : Bytes} (hs : c.state = .Recipients)
      (henvelope : c.envelope = some envelope) (hrecipient : envelope.to_[c.recipientIndex]? = some recipient)
      (hlast : c.recipientIndex + 1 = envelope.to_.length) (herror : c.mailError = none)
      (haccepted : (c.settleRecipient code response recipient).accepted ≠ []) :
      Replied c code response (((c.settleRecipient code response recipient).say .data).setState .Data)
  | recipientPipelined {envelope : Envelope} {recipient : Bytes} (hs : c.state = .Recipients)
      (henvelope : c.envelope = some envelope) (hrecipient : envelope.to_[c.recipientIndex]? = some recipient)
      (hmore : c.recipientIndex + 1 ≠ envelope.to_.length) (hpipe : c.capabilities.pipelining = true) :
      Replied c code response (c.settleRecipient code response recipient)
  | recipientNext {envelope : Envelope} {recipient next : Bytes} (hs : c.state = .Recipients)
      (henvelope : c.envelope = some envelope) (hrecipient : envelope.to_[c.recipientIndex]? = some recipient)
      (hmore : c.recipientIndex + 1 ≠ envelope.to_.length) (hpipe : c.capabilities.pipelining = false)
      (hnext : envelope.to_[c.recipientIndex + 1]? = some next) :
      Replied c code response ((c.settleRecipient code response recipient).say (.rcpt next))
  | bodyOpened {token : ℕ} (hs : c.state = .Data) (hcode : code = 354) : Replied c code response (c.openStream token)
  | bodyWritten (hs : c.state = .Data) (hcode : code = 354) :
      Replied c code response ((c.setState .Body).say (.content c.body))
  | completed {token : ℕ} {envelope : Envelope} (hs : c.state = .Body)
    (hcode : code = 250) (htoken : c.token = some token)
      (henvelope : c.envelope = some envelope) :
      Replied c code response (c.settle token ⟨response, code, c.accepted, c.rejected, envelope, c.messageId⟩)
  | restored (hs : c.state = .Reset) :
      Replied c code response ({ c.setState .Ready with automaticReset := false } : Connection L)
  | restarted (hs : c.state = .Reset) : Replied c code response ((c.setState .Ready).tell .Reset)
  | left (hs : c.state = .Quit) : Replied c code response c.closeTransport

namespace Connection

@[simp] lemma closeTransport_state {c : Connection L} : c.closeTransport.state = .Closed := by
  simp only [closeTransport]
  split_ifs with h
  · exact h
  · rfl

section

variable (c : Connection L) (code : ℕ) (response recipient : Bytes)

lemma settleRecipient_eq : c.settleRecipient code response recipient = { c with
      accepted := (c.settleRecipient code response recipient).accepted
      rejected := (c.settleRecipient code response recipient).rejected
      recipientIndex := c.recipientIndex + 1 } := by
  simp only [settleRecipient]
  split_ifs <;> rfl

@[simp] lemma settleRecipient_state : (c.settleRecipient code response recipient).state = c.state := by
  rw [settleRecipient_eq]

@[simp] lemma settleRecipient_index : (c.settleRecipient code response recipient).recipientIndex =
    c.recipientIndex + 1 := by
  rw [settleRecipient_eq]

@[simp] lemma settleRecipient_mailError : (c.settleRecipient code response recipient).mailError = c.mailError := by
  rw [settleRecipient_eq]

@[simp] lemma settleRecipient_capabilities : (c.settleRecipient code response recipient).capabilities =
    c.capabilities := by
  rw [settleRecipient_eq]

@[simp] lemma settleRecipient_envelope : (c.settleRecipient code response recipient).envelope = c.envelope := by
  rw [settleRecipient_eq]

@[simp] lemma settleRecipient_token : (c.settleRecipient code response recipient).token = c.token := by
  rw [settleRecipient_eq]

@[simp] lemma settleRecipient_log : (c.settleRecipient code response recipient).log = c.log := by
  rw [settleRecipient_eq]

end

lemma fail_aborted (c : Connection L) (code : ℕ) (response : Bytes) :
    Replied c code response (c.fail e).closeTransport := by
  have h : Replied c code response (((c.prepared c.capabilities c.authRaw c.authEncoded).fail e).closeTransport) :=
    .aborted
  exact h

lemma unexpected_replied (c : Connection L) (code : ℕ) (response : Bytes) :
    Replied c code response (c.unexpected code response) := by
  simp only [unexpected]
  split_ifs with h
  all_goals first
    | exact .refused h.1
    | exact c.fail_aborted code response

lemma ready_replied (hs : c.state.opening = true ∨ c.state.authenticating = true) :
    Replied c code response (c.prepared caps raw c.authEncoded).ready := by
  simp only [Connection.ready]
  split_ifs with h
  · exact .aborted
  · apply Replied.ready hs
    intro hm
    by_contra hsecure
    exact h ⟨hm, Bool.eq_false_iff.mpr hsecure⟩

lemma authenticate_replied (hs : c.state.opening = true) (hp : c.secure = true ∨ c.config.tls ≠ .Required) :
    Replied c code response (c.prepared caps c.authRaw c.authEncoded).authenticate := by
  have hu : ∀ e, Replied c code response (((c.prepared caps [] c.authEncoded).fail e).closeTransport) :=
    fun e => .aborted
  have ha : ∀ raw en cmd, cmd ≠ .data → Replied c code response (((c.prepared caps raw en).setState .Auth).say cmd) :=
    fun raw en cmd => .talked (.inl ⟨hs, hp⟩) rfl
  simp only [Connection.authenticate]
  have hb : (c.prepared caps c.authRaw c.authEncoded).config.auth = c.config.auth := rfl
  rw [hb]
  cases c.config.auth with
  | none => exact ready_replied (.inl hs)
  | some auth =>
    cases auth with
    | Plain | Login | Xoauth2 =>
      dsimp only
      split_ifs
      · exact ha _ _ _ nofun
      · exact hu _

lemma afterEhlo_replied (hs : c.state.opening = true) :
    Replied c code response (c.prepared caps c.authRaw c.authEncoded).afterEhlo := by
  simp only [afterEhlo]
  split_ifs with ho hr
  · exact .opened hs (.inr (.inr rfl)) rfl
  · exact .aborted
  · apply authenticate_replied hs
    by_contra hplain
    rw [not_or, not_not, Bool.not_eq_true] at hplain
    exact hr hplain

lemma replyMail_replied (hs : c.state = .Mail) (h : c.replyMail code response = some c') :
    Replied c code response c' := by
  simp only [replyMail] at h
  by_cases hp : (c.mailAnswered code response).capabilities.pipelining = true
  · rw [if_pos hp] at h
    cases h
    exact .mailPipelined hs hp
  · rw [if_neg hp] at h
    rw [Bool.not_eq_true] at hp
    cases he : (c.mailAnswered code response).mailError with
    | some =>
      rw [he] at h
      cases h
      exact .mailRefused hs hp
    | none =>
      rw [he] at h
      simp only [rcpt, pure_def, bind_eq_bind, bind_eq_some_iff] at h
      obtain ⟨_, hn, _, hr, ho⟩ := h
      cases ho
      exact .mailAccepted hs hp he hn hr

lemma replyRecipients_replied (hs : c.state = .Recipients) (h : c.replyRecipients code response = some c') :
    Replied c code response c' := by
  simp only [replyRecipients, pure_def, bind_eq_bind, bind_eq_some_iff] at h
  obtain ⟨en, he, recipient, ht, h⟩ := h
  simp only [settleRecipient_index, settleRecipient_capabilities] at h
  by_cases hl : c.recipientIndex + 1 = en.to_.length
  · rw [if_pos hl] at h
    cases h
    simp only [endRecipients, settleRecipient_mailError]
    cases hr : c.mailError with
    | some => exact .recipientsRefused hs he ht
    | none =>
      by_cases ha : (c.settleRecipient code response recipient).accepted = []
      · rw [if_pos ha]
        have hn : (c.settleRecipient code response recipient).takeMailError =
          c.settleRecipient code response recipient := by
          have hm := settleRecipient_mailError c code response recipient
          rw [hr] at hm
          rw [takeMailError, ← hm]
        rw [← hn]
        exact .recipientsRefused hs he ht
      · rw [if_neg ha]
        exact .recipientsDone hs he ht hl hr ha
  · rw [if_neg hl] at h
    by_cases hp : c.capabilities.pipelining = true
    · rw [if_pos hp] at h
      cases h
      exact .recipientPipelined hs he ht hl hp
    · rw [if_neg hp] at h
      simp only [rcpt, settleRecipient_envelope, he, pure_def, bind_eq_bind, bind_some, bind_eq_some_iff] at h
      obtain ⟨_, hx, ho⟩ := h
      cases ho
      exact .recipientNext hs he ht hl (Bool.eq_false_iff.mpr hp) hx

lemma openBody_replied (hs : c.state = .Data) (hc : code = 354) (h : c.openBody = some c') :
    Replied c code response c' := by
  simp only [openBody] at h
  split_ifs at h
  · obtain ⟨_, _, rfl⟩ := map_eq_some_iff.mp h
    exact .bodyOpened hs hc
  · cases h
    exact .bodyWritten hs hc

lemma complete_replied (hs : c.state = .Body) (hc : code = 250) (h : c.complete code response = some c') :
    Replied c code response c' := by
  simp only [complete, pure_def, bind_eq_bind, bind_eq_some_iff] at h
  obtain ⟨_, hn, _, he, ho⟩ := h
  cases ho
  exact .completed hs hc hn he

lemma reply_replied (h : c.reply code response = some c') : Replied c code response c' := by
  have hg : ∀ {c₁}, some c₁ = some c' → Replied c code response c₁ → Replied c code response c' := by
    rintro c₁ ⟨⟩ hr
    exact hr
  have hu := fun ho => hg ho (c.unexpected_replied code response)
  simp only [reply] at h
  by_cases hc : code = 421
  · rw [if_pos hc] at h
    exact hg h (c.fail_aborted code response)
  rw [if_neg hc] at h
  cases hs : c.state with
  | Greeting =>
    simp only [hs] at h
    split_ifs at h
    · exact hg h (.opened (by rw [hs]; rfl) (.inl rfl) rfl)
    · exact hu h
  | Ehlo =>
    have hp : c.state.opening = true := by rw [hs]; rfl
    simp only [hs] at h
    split_ifs at h
    · exact hg h (afterEhlo_replied hp)
    · exact hg h (.opened hp (.inr (.inl rfl)) rfl)
    · exact hu h
  | Helo =>
    simp only [hs] at h
    split_ifs at h
    · exact hg h (afterEhlo_replied (by rw [hs]; rfl))
    · exact hu h
  | StartTls =>
    simp only [hs] at h
    split_ifs at h with he
    · exact hg h (.upgrade hs he)
    · exact hu h
  | Auth =>
    have ha : c.state.authenticating = true := by rw [hs]; rfl
    simp only [hs] at h
    split_ifs at h
    · exact hg h (ready_replied (.inr ha))
    · split at h
      · exact hg h (.talked (.inr ha) rfl nofun)
      · exact hg h (.talked (.inr ha) rfl nofun)
      · exact hg h (.talked (.inr ha) rfl nofun)
      · exact hu h
    · exact hu h
  | LoginUser =>
    have ha : c.state.authenticating = true := by rw [hs]; rfl
    simp only [hs] at h
    split_ifs at h
    · split at h
      · exact hg h (.talked (.inr ha) rfl nofun)
      · exact hg h (.stayed hs)
    · exact hu h
  | LoginPassword =>
    simp only [hs] at h
    split_ifs at h
    · exact hg h (ready_replied (.inr (by rw [hs]; rfl)))
    · exact hu h
  | Mail =>
    simp only [hs] at h
    exact replyMail_replied hs h
  | Recipients =>
    simp only [hs] at h
    exact replyRecipients_replied hs h
  | Data =>
    simp only [hs] at h
    split_ifs at h with he
    · exact openBody_replied hs he h
    · exact hu h
  | Body =>
    simp only [hs] at h
    split_ifs at h with he
    · exact complete_replied hs he.1 h
    · exact hu h
  | Reset =>
    simp only [hs] at h
    split_ifs at h
    · exact hg h (.restored hs)
    · exact hg h (.restarted hs)
    · exact hu h
  | Quit =>
    simp only [hs] at h
    split_ifs at h
    · exact hg h (.left hs)
    · exact hu h
  | _ =>
    simp only [hs] at h
    exact hu h

end Connection

def Entry.outward : Entry → Bool
  | .said _ => true
  | .told _ => true
  | _ => false

def Entry.spoken : Entry → Bool
  | .said _ => true
  | .told .UpgradeTls => false
  | .told .CloseTransport => false
  | .told .Closed => false
  | .told _ => true
  | _ => false

lemma Entry.spoken_outward {e : Entry} (h : e.spoken = true) : e.outward = true := by
  cases e with
  | said => rfl
  | told => rfl
  | _ => cases h

/-- What the handling of a reply never touches, with the kind of entries it adds to the history. -/
structure Framed (Q : Entry → Bool) (c c' : Connection L) : Prop where
  config : c'.config = c.config
  secure : c'.secure = c.secure
  implicitPending : c'.implicitPending = c.implicitPending
  rx : c'.rx = c.rx
  response : c'.response = c.response
  responseCode : c'.responseCode = c.responseCode
  log : ∃ es, c'.log = c.log ++ es ∧ ∀ e ∈ es, Q e = true

namespace Framed

variable {Q : Entry → Bool}

lemma refl (Q : Entry → Bool) (c : Connection L) : Framed Q c c := ⟨rfl, rfl, rfl, rfl, rfl, rfl, [], by simp, by simp⟩

variable (h : Framed Q c c')
include h

lemma trans (h' : Framed Q c' c'') : Framed Q c c'' where
  config := h'.config.trans h.config
  secure := h'.secure.trans h.secure
  implicitPending := h'.implicitPending.trans h.implicitPending
  rx := h'.rx.trans h.rx
  response := h'.response.trans h.response
  responseCode := h'.responseCode.trans h.responseCode
  log := by
    obtain ⟨es, hl, hs⟩ := h.log
    obtain ⟨es', hl', he'⟩ := h'.log
    refine ⟨es ++ es', by rw [hl', hl, List.append_assoc], fun e he => ?_⟩
    rcases List.mem_append.mp he with he | he
    · exact hs e he
    · exact he' e he

lemma mono (hQR : ∀ e, Q e = true → R e = true) : Framed R c c' := by
  obtain ⟨es, hl, hs⟩ := h.log
  exact ⟨h.config, h.secure, h.implicitPending, h.rx, h.response, h.responseCode, es, hl, fun e he => hQR e (hs e he)⟩

lemma say (hQ : Q (.said cmd) = true) : Framed Q c (c'.say cmd) :=
  h.trans ⟨rfl, rfl, rfl, rfl, rfl, rfl, [.said cmd], rfl, by simpa using hQ⟩

lemma tell (hQ : Q (.told event) = true) : Framed Q c (c'.tell event) :=
  h.trans ⟨rfl, rfl, rfl, rfl, rfl, rfl, [.told event], rfl, by simpa using hQ⟩

lemma setState (s : State) : Framed Q c (c'.setState s) :=
  h.trans ⟨rfl, rfl, rfl, rfl, rfl, rfl, [], by simp [Connection.setState], by simp⟩

lemma prepared (caps : Capabilities) (raw encoded : Bytes) : Framed Q c (c'.prepared caps raw encoded) :=
  h.trans ⟨rfl, rfl, rfl, rfl, rfl, rfl, [], by simp [Connection.prepared], by simp⟩

lemma mailAnswered (code : ℕ) (response : Bytes) : Framed Q c (c'.mailAnswered code response) :=
  h.trans ⟨rfl, rfl, rfl, rfl, rfl, rfl, [], by simp [Connection.mailAnswered], by simp⟩

lemma takeMailError : Framed Q c c'.takeMailError :=
  h.trans ⟨rfl, rfl, rfl, rfl, rfl, rfl, [], by simp [Connection.takeMailError], by simp⟩

lemma fail (e : Error) (hQ : Q (.told (.Failed c'.token e c'.envelope c'.accepted c'.rejected)) = true) :
    Framed Q c (c'.fail e) :=
  (h.tell hQ).trans ⟨rfl, rfl, rfl, rfl, rfl, rfl, [], by simp [Connection.fail], by simp⟩

lemma closeTransport (hQ : Q (.told .CloseTransport) = true ∧ Q (.told .Closed) = true) :
    Framed Q c c'.closeTransport := by
  apply h.trans
  simp only [Connection.closeTransport]
  split_ifs
  · exact refl Q c'
  · exact ⟨rfl, rfl, rfl, rfl, rfl, rfl, [.told .CloseTransport, .told .Closed],
      by simp [Connection.tell], by simp [hQ]⟩

lemma failAndReset (e : Error) (hQ : Q (.told (.Failed c'.token e c'.envelope c'.accepted c'.rejected)) = true)
    (hr : Q (.said .rset) = true) :
    Framed Q c (c'.failAndReset e) :=
  ((h.fail e hQ).say hr).trans ⟨rfl, rfl, rfl, rfl, rfl, rfl, [], by simp [Connection.failAndReset], by simp⟩

lemma settleRecipient (code : ℕ) (response recipient : Bytes) :
    Framed Q c (c'.settleRecipient code response recipient) := by
  apply h.trans
  rw [settleRecipient_eq]
  exact ⟨rfl, rfl, rfl, rfl, rfl, rfl, [], by simp, by simp⟩

end Framed

def Connection.Outcome (c c' : Connection L) : Prop :=
  (∃ caps raw e, c' = ((c.prepared caps raw c.authEncoded).fail e).closeTransport)
    ∨ (c.state = .Quit ∧ c' = c.closeTransport)
    ∨ (c.state = .StartTls ∧ c' = (c.setState .Tls).tell .UpgradeTls)
    ∨ (c.state ≠ .Closed ∧ c.state ≠ .Tls ∧ c'.state ≠ .Closed ∧ Framed Entry.spoken c c')

variable (h : Replied c code response c')
include h

lemma Replied.outcome : c.Outcome c' := by
  have hc := Framed.refl Entry.spoken c
  have ho : c.state.opening = true → c.state ≠ .Closed ∧ c.state ≠ .Tls := by
    intro hs
    refine ⟨fun he => ?_, fun he => ?_⟩ <;> simp [he, State.opening] at hs
  have ha : ∀ {s : State}, s.authenticating = true → s ≠ .Closed ∧ s ≠ .Tls := by
    intro s hs
    refine ⟨fun he => ?_, fun he => ?_⟩ <;> simp [he, State.authenticating] at hs
  have ht : (c.state ≠ .Closed ∧ c.state ≠ .Tls) → c'.state ≠ .Closed → Framed Entry.spoken c c' → c.Outcome c' :=
    fun hs hd hf => .inr (.inr (.inr ⟨hs.1, hs.2, hd, hf⟩))
  have hg : ∀ {s : State}, c.state = s → s ≠ .Closed ∧ s ≠ .Tls → c'.state ≠ .Closed → Framed Entry.spoken c c' →
    c.Outcome c' := by
    rintro s rfl
    exact ht
  cases h with
  | aborted => exact .inl ⟨_, _, _, rfl⟩
  | left hs => exact .inr (.inl ⟨hs, rfl⟩)
  | upgrade hs => exact .inr (.inr (.inl ⟨hs, rfl⟩))
  | opened hs hb =>
    refine ht (ho hs) ?_ (((hc.prepared _ _ _).setState _).say rfl)
    rcases hb with rfl | rfl | rfl <;> simp [say, setState]
  | talked hs hb =>
    exact ht (hs.elim (fun hs => ho hs.1) ha) (ha hb).1 (((hc.prepared _ _ _).setState _).say rfl)
  | stayed hs => exact hg hs ⟨nofun, nofun⟩ (by simp [hs]) hc
  | ready hs =>
    exact ht (hs.elim ho ha) nofun (((hc.prepared _ _ _).setState _).tell rfl)
  | refused hs =>
    rcases hs with hs | hs <;> exact hg hs ⟨nofun, nofun⟩ nofun (hc.failAndReset _ rfl rfl)
  | mailPipelined hs => exact hg hs ⟨nofun, nofun⟩ nofun (hc.mailAnswered _ _)
  | mailRefused hs =>
    exact hg hs ⟨nofun, nofun⟩ nofun ((hc.mailAnswered _ _).takeMailError.failAndReset _ rfl rfl)
  | mailAccepted hs =>
    exact hg hs ⟨nofun, nofun⟩ nofun ((hc.mailAnswered _ _).say rfl)
  | recipientsRefused hs =>
    refine hg hs ⟨nofun, nofun⟩ nofun ?_
    exact (hc.settleRecipient _ _ _).takeMailError.failAndReset _ rfl rfl
  | recipientsDone hs =>
    exact hg hs ⟨nofun, nofun⟩ nofun (((hc.settleRecipient _ _ _).say rfl).setState _)
  | recipientPipelined hs =>
    exact hg hs ⟨nofun, nofun⟩ (by simp [hs]) (hc.settleRecipient _ _ _)
  | recipientNext hs =>
    exact hg hs ⟨nofun, nofun⟩ (by simp [say, hs]) ((hc.settleRecipient _ _ _).say rfl)
  | bodyOpened hs | completed hs =>
    refine hg hs ⟨nofun, nofun⟩ nofun ?_
    exact ⟨rfl, rfl, rfl, rfl, rfl, rfl, [_], rfl, by simp [Entry.spoken]⟩
  | bodyWritten hs => exact hg hs ⟨nofun, nofun⟩ nofun ((hc.setState _).say rfl)
  | restored hs =>
    refine hg hs ⟨nofun, nofun⟩ nofun ?_
    exact ⟨rfl, rfl, rfl, rfl, rfl, rfl, [], by simp [Connection.setState], by simp⟩
  | restarted hs => exact hg hs ⟨nofun, nofun⟩ nofun ((hc.setState _).tell rfl)

lemma Replied.framed : Framed Entry.outward c c' := by
  have hc := Framed.refl Entry.outward c
  rcases h.outcome with ⟨caps, raw, e, rfl⟩ | ⟨hs, rfl⟩ | ⟨hs, rfl⟩ | ⟨_, _, _, hf⟩
  · exact ((hc.prepared caps raw c.authEncoded).fail e rfl).closeTransport ⟨rfl, rfl⟩
  · exact hc.closeTransport ⟨rfl, rfl⟩
  · exact (hc.setState .Tls).tell rfl
  · exact hf.mono fun e he => Entry.spoken_outward he

lemma Replied.not_disconnected : c'.state ≠ .Disconnected := by
  cases h with
  | opened hs ho => rcases ho with rfl | rfl | rfl <;> simp [say, setState]
  | talked hs ho =>
    intro he
    simp only [say, setState] at he
    simp [he, State.authenticating] at ho
  | stayed hs | recipientPipelined hs => simp [hs]
  | recipientNext hs => simp [say, hs]
  | _ => simp [Connection.tell, say, setState, failAndReset, mailAnswered, settle, openStream]

end Turnloop.Smtp
