import Turnloop.Mongodb.Connection

/-! Every command of a connection is settled once, and its reply can be read until then. -/

namespace Turnloop.Mongodb

open Lib Lib.Program List

namespace ConnectionEvent

def names : ConnectionEvent → Option ℕ
  | .reply token => some token
  | .unacknowledged token => some token
  | .failed token _ => token
  | _ => none

def settles : ConnectionEvent → Option ℕ
  | .unacknowledged token => some token
  | .failed token _ => token
  | _ => none

def isReply : ConnectionEvent → Bool
  | .reply _ => true
  | _ => false

end ConnectionEvent

open ConnectionEvent

namespace Connection

variable {W : Wire} {c c' c₀ : Connection W} {token : ℕ}

def Idle (c : Connection W) : Prop :=
  c.state = .new ∨ c.state = .tls ∨ c.state = .handshake ∨ c.state = .auth ∨ c.state = .ready

def Holding (c : Connection W) : Prop := c.state = .reply ∨ c.state = .closed

structure Coherent (c : Connection W) : Prop where
  idle : Idle c → c.token = none
  asked : ¬Idle c → c.state ≠ .closed → c.token.isSome = true
  held : Holding c → c.token.isSome = true → c.decoder.complete = true ∧ ∃ m, W.parse c.frame c.maxMessageSize = .ok m
  auth : c.state = .auth → c.options.credential.isSome = true ∧ c.scram.isSome = true
  speculated : c.state = .handshake → c.options.credential.isSome = true → c.scram.isSome = true

def Tidy (c : Connection W) : Prop := ∀ t, .reply t ∈ c.events → c.token = some t ∧ Holding c

structure Settles (c c' : Connection W) : Prop where
  books : (c'.events.filterMap settles ++ c'.token.toList).Perm (c.events.filterMap settles ++ c.token.toList)
  named : ∀ e ∈ c'.events, ∀ t, e.names = some t → e ∈ c.events ∨ c.token = some t
  tidy : Tidy c → Tidy c'

lemma Settles.refl (c : Connection W) : Settles c c := ⟨List.Perm.refl _, fun _ he _ _ => .inl he, fun h => h⟩

structure Staged (c₀ c : Connection W) : Prop where
  token : c.token = none
  events : ∃ es, c.events = c₀.events ++ es ∧ ∀ e ∈ es, e.names = none
  idle : Idle c
  auth : c.state = .auth → c.options.credential.isSome = true ∧ c.scram.isSome = true
  speculated : c.state = .handshake → c.options.credential.isSome = true → c.scram.isSome = true

namespace Staged

lemma start (h : Coherent c) (hi : Idle c) : Staged c c :=
  ⟨h.idle hi, ⟨[], by simp, by simp⟩, hi, h.auth, h.speculated⟩

lemma coherent (h : Staged c₀ c) : Coherent c := by
  refine ⟨fun _ => h.token, fun hi => absurd h.idle hi, fun _ hs => ?_, h.auth, h.speculated⟩
  simp [h.token] at hs

lemma settles (h : Staged c₀ c) (h₀ : c₀.token = none) : Settles c₀ c := by
  obtain ⟨es, hs, ho⟩ := h.events
  have hi : es.filterMap ConnectionEvent.settles = [] := by
    refine filterMap_eq_nil_iff.mpr fun e he => ?_
    have hn := ho e he
    cases e <;> simp_all [names, ConnectionEvent.settles]
  refine ⟨?_, ?_, ?_⟩
  · rw [hs, filterMap_append, hi, append_nil, h.token, h₀]
  · intro e he t ht
    rw [hs] at he
    rcases mem_append.mp he with he | he
    · exact .inl he
    · rw [ho e he] at ht
      cases ht
  · intro hb t ht
    rw [hs] at ht
    rcases mem_append.mp ht with ht | ht
    · exact absurd (h₀.symm.trans (hb t ht).1) (by simp)
    · exact absurd (ho _ ht) (by simp [names])

lemma same (h : Staged c₀ c) (hn : c'.token = c.token) (he : c'.events = c.events) (hs : c'.state = c.state)
    (ho : c'.options = c.options) (hm : c'.scram = c.scram) : Staged c₀ c' := by
  refine ⟨hn ▸ h.token, he ▸ h.events, ?_, ?_, ?_⟩
  · unfold Idle
    rw [hs]
    exact h.idle
  · rw [hs, ho, hm]
    exact h.auth
  · rw [hs, ho, hm]
    exact h.speculated

end Staged

/-- A program that keeps to `inv`, whether it returns or fails, and does not end the program. -/
def Safe {α : Type} (inv : Connection W → Prop) (m : M W α) (c : Connection W) : Prop :=
  Post m c (fun _ => inv) (fun fault c' => fault ≠ .panic ∧ inv c')

namespace Safe

variable {α β : Type} {inv : Connection W → Prop} {m : M W α} {k : α → M W β}

lemma bind (h : Safe inv m c) (hk : ∀ a c', inv c' → Safe inv (k a) c') : Safe inv (m >>= k) c :=
  Post.bind (.mono h (fun a c' hc' => hk a c' hc') fun _ _ he => he)

lemma check_bind (h : inv c) (hk : ∀ a, r = .ok a → Safe inv (k a) c) : Safe inv (Connection.check r >>= k) c := by
  cases r with
  | ok a => exact Post.bind (Post.pure (hk a rfl))
  | error => exact Post.bind (Post.throw ⟨by simp, h⟩)

lemma unwrap_bind (ho : o.isSome = true) (hk : ∀ a, o = some a → Safe inv (k a) c) : Safe inv (unwrap o >>= k) c := by
  cases o with
  | some a => exact Post.bind (Post.pure (hk a rfl))
  | none => simp at ho

lemma refuse_bind {k : Unit → M W β} (h : inv c) (hk : b = false → Safe inv (k ()) c) :
    Safe inv (refuse b (.error message) >>= k) c :=
  Post.refuse (fun _ => ⟨by simp, h⟩) hk

lemma when_ {m : M W Unit} (h : inv c) (hm : b = true → Safe inv m c) : Safe inv (when b m) c :=
  Post.when_last (fun _ => h) hm

end Safe

section

variable {inv : Connection W → Prop} {d : Document}

def SendFree (inv : Connection W → Prop) : Prop :=
  ∀ c tx txAt requestId expected, inv c →
    inv { c with tx := tx, txAt := txAt, requestId := requestId, expected := expected }

lemma compress_safe (hf : SendFree inv) {command : String} (h : inv c) : Safe inv (compress command) c := by
  refine Post.get (Safe.when_ h fun _ => ?_)
  refine Safe.check_bind h fun stream _ => ?_
  exact Post.modify (hf c _ c.txAt c.requestId c.expected h)

lemma send_safe (hf : SendFree inv) (body : RawDocument) (sequences : List (String × List RawDocument)) (flags : ℕ)
    (h : inv c) : Safe inv (send body sequences flags) c := by
  refine Post.get (Post.put ?_)
  have hc := hf c [] c.txAt c.requestId c.expected h
  refine Safe.check_bind hc fun bytes _ => Post.put ?_
  have he := hf c bytes 0 (nextRequest c.requestId) (nextRequest c.requestId) h
  exact Safe.check_bind he fun command _ => compress_safe hf he

lemma sendDocument_safe (hf : SendFree inv) (h : inv c) : Safe inv (sendDocument d) c :=
  Safe.check_bind h fun raw _ => send_safe hf raw [] 0 h

lemma staged_sendFree : SendFree (Staged c₀) := fun _ _ _ _ _ h => h.same rfl rfl rfl rfl rfl

lemma handshake_safe (h : Staged c₀ c) : Safe (Staged c₀) handshake c := by
  refine Post.get ?_
  cases hc : c.options.credential with
  | none =>
    refine Post.put (sendDocument_safe staged_sendFree ?_)
    refine ⟨h.token, h.events, by simp [Idle], by simp, fun _ ho => ?_⟩
    simp [hc] at ho
  | some =>
    refine Safe.check_bind h fun scram _ => Post.put (sendDocument_safe staged_sendFree ?_)
    exact ⟨h.token, h.events, by simp [Idle], by simp, fun _ _ => rfl⟩

lemma connected_safe (h : Coherent c) (now : ℕ) (nonce : String) :
    Safe (fun c' => c' = c ∨ (c.token = none ∧ Staged c c')) (connected now nonce) c := by
  refine Post.get (Safe.refuse_bind (Or.inl rfl) fun he => Post.put ?_)
  have hn : c.state = .new := by simpa using he
  have hi : Idle c := Or.inl hn
  have ht : Staged c { c with nonce := c.nonce ++ nonce, deadline := after c.options.connectTimeout now } :=
    (Staged.start h hi).same rfl rfl rfl rfl rfl
  split_ifs
  · refine .modify (.inr ⟨h.idle hi, ?_⟩)
    exact ⟨h.idle hi, ⟨[.upgradeTls], rfl, by simp [names]⟩, by simp [Idle], by simp, by simp⟩
  · refine .mono (handshake_safe ht) (fun _ _ hs => .inr ⟨h.idle hi, hs⟩)
      fun _ _ hs => ⟨hs.1, .inr ⟨h.idle hi, hs.2⟩⟩

lemma tlsEstablished_safe (h : Coherent c) :
    Safe (fun c' => c' = c ∨ (c.token = none ∧ Staged c c')) tlsEstablished c := by
  refine Post.get (Safe.refuse_bind (Or.inl rfl) fun he => ?_)
  have hi : Idle c := Or.inr (.inl (by simpa using he))
  exact .mono (handshake_safe (.start h hi)) (fun _ _ hs => .inr ⟨h.idle hi, hs⟩)
    fun _ _ hs => ⟨hs.1, .inr ⟨h.idle hi, hs.2⟩⟩

variable (h : Staged c₀ c)
include h

lemma becomeReady_safe : Safe (Staged c₀) becomeReady c := by
  refine .modify ⟨h.token, ?_, by simp [Idle], by simp, by simp⟩
  obtain ⟨es, hs, hn⟩ := h.events
  refine ⟨es ++ [ConnectionEvent.ready], by simp [hs], ?_⟩
  intro e he
  rcases mem_append.mp he with he | he
  · exact hn e he
  · rw [mem_singleton.mp he]
    rfl

lemma proceed_safe (next : Option Document) : Safe (Staged c₀) (proceed next) c := by
  cases next with
  | some => exact sendDocument_safe staged_sendFree h
  | none => exact becomeReady_safe h

lemma Staged.scram (scram : W.Scram) : Staged c₀ { c with scram := some scram } :=
  ⟨h.token, h.events, h.idle, fun ha => ⟨(h.auth ha).1, rfl⟩, fun _ _ => rfl⟩

lemma scramStep_safe (hs : c.scram.isSome = true) : Safe (Staged c₀) (scramStep d source) c := by
  refine Post.get (Safe.unwrap_bind hs fun scram _ => Safe.check_bind h fun stepped _ => ?_)
  exact Post.put (Post.pure (h.scram stepped.1))

lemma scramRestart_safe : Safe (Staged c₀) (scramRestart d credential) c := by
  refine Post.get (Safe.check_bind h fun scram _ => ?_)
  exact Post.put (Post.pure (h.scram _))

lemma negotiate_safe : Safe (fun c' => Staged c₀ c' ∧ c'.state = c.state ∧ c'.scram = c.scram ∧
    c'.options = c.options) (negotiate d) c := by
  have hc : Staged c₀ c ∧ c.state = c.state ∧ c.scram = c.scram ∧ c.options = c.options := ⟨h, rfl, rfl, rfl⟩
  refine Post.get (Safe.refuse_bind hc fun _ => Safe.check_bind hc fun message _ => Post.put ?_)
  refine Safe.check_bind ⟨h.same rfl rfl rfl rfl rfl, rfl, rfl, rfl⟩ fun bson _ => Post.put ?_
  refine Safe.check_bind ⟨h.same rfl rfl rfl rfl rfl, rfl, rfl, rfl⟩ fun batch _ => Post.modify ?_
  exact ⟨h.same rfl rfl rfl rfl rfl, rfl, rfl, rfl⟩

lemma authenticate_safe (hc : c.options.credential.isSome = true) (hs : c.scram.isSome = true) :
    Safe (Staged c₀) (authenticate d credential) c := by
  refine Post.put ?_
  have ha : Staged c₀ { c with state := .auth } :=
    ⟨h.token, h.events, by simp [Idle], fun _ => ⟨hc, hs⟩, by simp⟩
  refine Safe.bind ?_ fun next c' hc' => proceed_safe hc' next
  unfold firstStep
  split
  · exact scramStep_safe ha hs
  · exact scramRestart_safe ha

lemma receiveHello_safe (ht : c.state = .handshake) : Safe (Staged c₀) (receiveHello d) c := by
  refine Post.bind (Post.mono (negotiate_safe h) ?_ fun _ _ he => ⟨he.1, he.2.1⟩)
  rintro - c' ⟨hc', hs, _, _⟩
  refine .get ?_
  cases hc : c'.options.credential with
  | none => exact becomeReady_safe hc'
  | some credential =>
    split_ifs
    · exact becomeReady_safe hc'
    · have ho : c'.options.credential.isSome = true := by rw [hc]; rfl
      exact authenticate_safe hc' ho (hc'.speculated (hs.trans ht) ho)

lemma receiveAuth_safe (hs : c.state = .auth) : Safe (Staged c₀) (receiveAuth d) c := by
  refine Post.get (Safe.unwrap_bind (h.auth hs).1 fun credential _ => ?_)
  exact Safe.bind (scramStep_safe h (h.auth hs).2) fun next c' hc' => proceed_safe hc' next

lemma receiveSetup_safe (he : c.state = .handshake ∨ c.state = .auth) : Safe (Staged c₀) (receiveSetup m) c := by
  refine Post.get (Safe.check_bind h fun _ _ => Post.put ?_)
  have hc : Staged c₀ { c with decoder := { c.decoder with bytes := [] }, expanded := [] } :=
    h.same rfl rfl rfl rfl rfl
  split_ifs with hs
  · exact receiveHello_safe hc hs
  · exact receiveAuth_safe hc (he.resolve_left hs)

end

def Fed (c c' : Connection W) : Prop := ∃ decoder expanded, c' = { c with decoder := decoder, expanded := expanded }

lemma feed_safe {c : Connection W} {input : Bytes} : Safe (Fed c) (feed input) c := by
  have hr : Fed c c := ⟨c.decoder, c.expanded, rfl⟩
  refine Post.get (Safe.check_bind hr fun target _ => Safe.refuse_bind hr fun _ => Post.put ?_)
  refine Post.get (Safe.check_bind ⟨_, c.expanded, rfl⟩ fun _ _ => Post.pure ⟨_, c.expanded, rfl⟩)

lemma expand_safe {c : Connection W} : Safe (fun c' => Fed c c' ∧ c'.decoder = c.decoder) expand c := by
  refine Post.get (Post.put ?_)
  have hc : Fed c { c with expanded := [] } ∧ { c with expanded := [] }.decoder = c.decoder :=
    ⟨⟨c.decoder, [], rfl⟩, rfl⟩
  refine Safe.check_bind hc fun opcode _ => Safe.when_ hc fun _ => ?_
  refine Safe.refuse_bind hc fun _ => Safe.refuse_bind hc fun _ => Safe.check_bind hc fun original _ => ?_
  refine .refuse_bind hc fun _ => .check_bind hc fun size _ => .refuse_bind hc fun _ => ?_
  refine .check_bind hc fun payload _ => .refuse_bind hc fun _ => .modify ?_
  exact ⟨⟨c.decoder, _, rfl⟩, rfl⟩

lemma Fed.staged (h : Fed c c') (hc : Staged c₀ c) : Staged c₀ c' := by
  obtain ⟨_, _, rfl⟩ := h
  exact hc.same rfl rfl rfl rfl rfl

lemma Fed.trans (h : Fed c c') (h' : Fed c' c'') : Fed c c'' := by
  obtain ⟨_, _, rfl⟩ := h
  obtain ⟨d', e', rfl⟩ := h'
  exact ⟨d', e', rfl⟩

lemma receiveMessage_setup (h : Staged c₀ c) (ht : c.state = .handshake ∨ c.state = .auth) :
    Safe (Staged c₀) receiveMessage c := by
  refine Post.bind (Post.mono expand_safe ?_ fun _ _ he => ⟨he.1, he.2.1.staged h⟩)
  rintro - c' ⟨hf, -⟩
  have hc' := hf.staged h
  have hs : c'.state = c.state := by
    obtain ⟨_, _, rfl⟩ := hf
    rfl
  refine Post.get (Safe.check_bind hc' fun m _ => Safe.refuse_bind hc' fun _ => Safe.refuse_bind hc' fun _ => ?_)
  rw [if_neg (by rw [hs]; rcases ht with hs | hs <;> simp [hs])]
  exact receiveSetup_safe hc' (hs ▸ ht)

structure Replied (t : ℕ) (c c' : Connection W) : Prop where
  state : c'.state = .reply
  token : c'.token = some t
  events : c'.events = c.events ++ [ConnectionEvent.reply t]
  complete : c'.decoder.complete = true
  parsed : ∃ m, W.parse c'.frame c'.maxMessageSize = .ok m

lemma receiveReply_post (h : c.token = some token) {err : Fault → Connection W → Prop} : Post receiveReply c
    (fun _ c' => c' =
      { c with state := .reply, deadline := none, events := c.events ++ [ConnectionEvent.reply token] }) err := by
  have hu : (unwrap c.token : M W ℕ) = pure token := by
    rw [h]
    rfl
  refine .get ?_
  rw [hu]
  exact .bind (.pure (.modify rfl))

lemma receiveMessage_command (hs : c.state = .command) (hn : c.token = some token) (hc : c.decoder.complete = true) :
    Post receiveMessage c (fun _ => Replied token c) (fun fault c' => fault ≠ .panic ∧ Fed c c') := by
  refine .bind (.mono expand_safe ?_ fun _ _ he => ⟨he.1, he.2.1⟩)
  rintro - c' ⟨hf, hd⟩
  obtain ⟨decoder, expanded, rfl⟩ := hf
  refine .get ?_
  cases hp : W.parse (frame { c with decoder := decoder, expanded := expanded }) c.maxMessageSize with
  | error => exact .bind (.throw ⟨by simp, decoder, expanded, rfl⟩)
  | ok m =>
    refine .bind (.pure ?_)
    refine .refuse (fun _ => ⟨by simp [protocol], decoder, expanded, rfl⟩) fun _ => ?_
    refine .refuse (fun _ => ⟨by simp [protocol], decoder, expanded, rfl⟩) fun _ => ?_
    rw [if_pos hs]
    refine .mono (receiveReply_post (c := { c with decoder := decoder, expanded := expanded }) hn) ?_ fun _ _ h => h
    rintro - _ rfl
    exact ⟨rfl, hn, rfl, hd ▸ hc, m, hp⟩

lemma receiveInner_setup (h : Staged c₀ c) (ht : c.state = .handshake ∨ c.state = .auth) {input : Bytes} :
    Safe (Staged c₀) (receiveInner input) c := by
  refine Post.bind (Post.mono feed_safe ?_ fun _ _ he => ⟨he.1, he.2.staged h⟩)
  intro n c' hf
  have hc' := hf.staged h
  have hs : c'.state = c.state := by
    obtain ⟨_, _, rfl⟩ := hf
    rfl
  refine Post.get (Safe.bind ?_ fun _ _ hc'' => Post.pure hc'')
  exact Safe.when_ hc' fun _ => receiveMessage_setup hc' (hs ▸ ht)

lemma receiveInner_command (hb : c.state = .command) (hn : c.token = some token) {input : Bytes} :
    Post (receiveInner input) c (fun _ c' => Fed c c' ∨ Replied token c c') (fun fault c' => fault ≠ .panic ∧
      Fed c c') := by
  refine .bind (.mono feed_safe ?_ fun _ _ he => he)
  intro n c' hf
  refine .get ?_
  have ha : c'.state = c.state ∧ c'.token = c.token ∧ c'.events = c.events := by
    obtain ⟨_, _, rfl⟩ := hf
    exact ⟨rfl, rfl, rfl⟩
  obtain ⟨hs, ht, he⟩ := ha
  refine .bind (.when_last (fun _ => .pure (.inl hf)) fun hc => ?_)
  refine .mono (receiveMessage_command (hs.trans hb) (ht.trans hn) hc) ?_ fun _ _ h => ⟨h.1, hf.trans h.2⟩
  rintro - _ ⟨hs', ht', hv, hd, hp⟩
  exact .pure (.inr ⟨hs', ht', he ▸ hv, hd, hp⟩)

structure Step (came : Bool) (c c' : Connection W) : Prop where
  coherent : Coherent c'
  settles : Settles c c'
  -- a command still in hand was in hand before, with its reply or without
  kept : ∀ t, c'.token = some t → c.token = some t ∧ (Holding c' ↔ came = true ∨ Holding c)

lemma Step.refl (h : Coherent c) : Step false c c := ⟨h, .refl c, fun _ ht => ⟨ht, by simp⟩⟩

lemma Step.trans (h : Step false c c') (h' : Step false c' c'') : Step false c c'' := by
  refine ⟨h'.coherent, ⟨h'.settles.books.trans h.settles.books, fun e he t ht => ?_, fun hc => ?_⟩, fun t ht => ?_⟩
  · rcases h'.settles.named e he t ht with he | ht'
    · exact h.settles.named e he t ht
    · exact .inr (h.kept t ht').1
  · exact h'.settles.tidy (h.settles.tidy hc)
  · obtain ⟨ht', hh'⟩ := h'.kept t ht
    obtain ⟨ht, hh⟩ := h.kept t ht'
    simp only [Bool.false_eq_true, false_or] at hh hh' ⊢
    exact ⟨ht, hh'.trans hh⟩

lemma Staged.step (h : Staged c₀ c) (h₀ : c₀.token = none) : Step false c₀ c :=
  ⟨h.coherent, h.settles h₀, fun t ht => absurd (h.token.symm.trans ht) (by simp)⟩

lemma Fed.step (h : Fed c c') (hc : Coherent c) (hs : c.state = .command) : Step false c c' := by
  obtain ⟨_, _, rfl⟩ := h
  refine ⟨⟨hc.idle, hc.asked, fun hh => ?_, hc.auth, hc.speculated⟩,
    ⟨List.Perm.refl _, fun _ he _ _ => .inl he, fun h => h⟩,
    fun _ ht => ⟨ht, by simp [Holding]⟩⟩
  rcases hh with hh | hh <;> exact absurd (hs.symm.trans hh) (by simp)

lemma Replied.step (h : Replied t c c') (hs : c.state = .command) (ht : c.token = some t) : Step true c c' := by
  refine ⟨⟨?_, ?_, ?_, ?_, ?_⟩, ⟨?_, ?_, ?_⟩, ?_⟩
  · intro hi
    simp [Idle, h.state] at hi
  · intro _ _
    rw [h.token]
    rfl
  · exact fun _ _ => ⟨h.complete, h.parsed⟩
  · intro ha
    simp [h.state] at ha
  · intro ha
    simp [h.state] at ha
  · rw [h.events, h.token, ht, filterMap_append]
    simp [settles, filterMap_cons]
  · intro e he t' ht'
    rw [h.events] at he
    rcases mem_append.mp he with he | he
    · exact .inl he
    · rw [mem_singleton.mp he, names] at ht'
      exact .inr (ht.trans ht')
  · intro hb t' ht'
    rw [h.events] at ht'
    rcases mem_append.mp ht' with ht' | ht'
    · rcases (hb t' ht').2 with hh | hh <;> exact absurd (hs.symm.trans hh) (by simp)
    · cases mem_singleton.mp ht'
      exact ⟨h.token, .inl h.state⟩
  · intro t' ht'
    rw [h.token] at ht'
    exact ⟨ht.trans ht', iff_of_true (.inl h.state) (.inl rfl)⟩

def revoked (c : Connection W) : List ConnectionEvent :=
  if c.state = .reply then c.events.filter fun e => match e with
    | .reply token => c.token != some token
    | _ => true
  else c.events

lemma fail_open (h : c.state ≠ .closed) (error : Error) : (c.fail error).token = none ∧ (c.fail error).state = .closed ∧
      (c.fail error).events = revoked c ++ [ConnectionEvent.failed c.token error, .closed] := by
  unfold fail revoked
  rw [if_neg h]
  split_ifs <;> exact ⟨rfl, rfl, rfl⟩

lemma revoked_settles (c : Connection W) : (revoked c).filterMap settles = c.events.filterMap settles := by
  unfold revoked
  split_ifs
  · rw [filterMap_filter]
    refine filterMap_congr fun e _ => ?_
    cases e <;> simp [settles]
  · rfl

lemma revoked_sub : ∀ e ∈ revoked c, e ∈ c.events := by
  intro e he
  unfold revoked at he
  split_ifs at he
  · exact (mem_filter.mp he).1
  · exact he

lemma revoked_tidy (h : Tidy c) (ho : c.state ≠ .closed) {t : ℕ} : .reply t ∉ revoked c := by
  intro ht
  obtain ⟨hn, hh⟩ := h t (revoked_sub _ ht)
  have hs : c.state = .reply := hh.resolve_right ho
  rw [revoked, if_pos hs] at ht
  simp [hn] at ht

lemma fail_step (hc : Coherent c) (error : Error) : Step false c (c.fail error) := by
  by_cases hd : c.state = .closed
  · rw [fail, if_pos hd]
    exact .refl hc
  · obtain ⟨hn, hs, hv⟩ := fail_open hd error
    refine ⟨⟨fun _ => hn, ?_, ?_, ?_, ?_⟩, ⟨?_, ?_, ?_⟩, ?_⟩
    · exact fun _ hb => absurd hs hb
    · intro _ ho
      simp [hn] at ho
    · intro ha
      simp [hs] at ha
    · intro ha
      simp [hs] at ha
    · rw [hv, hn, filterMap_append, revoked_settles]
      cases c.token <;> simp [settles, filterMap_cons]
    · intro e he t ht
      rw [hv] at he
      rcases mem_append.mp he with he | he
      · exact .inl (revoked_sub e he)
      · rcases mem_pair.mp he with rfl | rfl
        · exact .inr ht
        · cases ht
    · intro hi t ht
      rw [hv] at ht
      rcases mem_append.mp ht with ht | ht
      · exact absurd ht (revoked_tidy hi hd)
      · simp at ht
    · intro t ht
      simp [hn] at ht

lemma handleTimeout_step (hc : Coherent c) {now : ℕ} : Step false c (c.handleTimeout now) := by
  unfold handleTimeout
  split_ifs
  · exact fail_step hc _
  · exact .refl hc

lemma close_reply (h : c.state = .reply) :
    c.close =
      { c with state := .closed, deadline := none, tx := [], txAt := 0, events := c.events ++ [.closed] } := by
  simp [close, h]

lemma close_open (h : c.state ≠ .closed) (hr : c.state ≠ .reply) : c.close.token = none ∧ c.close.state = .closed ∧
      ∃ error, c.close.events = c.events ++ (c.token.toList.map fun t => .failed (some t) error) ++
        [ConnectionEvent.closed] := by
  refine ⟨?_, by simp only [close, if_neg h], .new .cancelled "Operation cancelled by connection close", ?_⟩
  all_goals
    simp only [close, if_neg h]
    cases hn : c.token <;> simp [hn, hr]

lemma close_step (hc : Coherent c) : Step false c c.close := by
  by_cases hd : c.state = .closed
  · rw [close, if_pos hd]
    exact .refl hc
  by_cases hr : c.state = .reply
  · rw [close_reply hr]
    refine ⟨⟨?_, ?_, ?_, by simp, by simp⟩, ⟨?_, ?_, ?_⟩, fun t ht => ⟨ht, by simp [Holding, hr]⟩⟩
    · intro hi
      simp [Idle] at hi
    · intro _ hn
      exact absurd rfl hn
    · exact fun _ => hc.held (.inl hr)
    · simp [settles, filterMap_cons]
    · intro e he t ht
      rcases mem_append.mp he with he | he
      · exact .inl he
      · rw [mem_singleton.mp he] at ht
        cases ht
    · intro hb t ht
      refine ⟨?_, .inr rfl⟩
      rcases mem_append.mp ht with ht | ht
      · exact (hb t ht).1
      · simp at ht
  · obtain ⟨ho, hs, _, hv⟩ := close_open hd hr
    refine ⟨⟨fun _ => ho, ?_, ?_, ?_, ?_⟩, ⟨?_, ?_, ?_⟩, ?_⟩
    · exact fun _ hn => absurd hs hn
    · intro _ hf
      simp [ho] at hf
    · intro ha
      simp [hs] at ha
    · intro ha
      simp [hs] at ha
    · rw [hv, ho, filterMap_append, filterMap_append]
      cases c.token <;> simp [settles, filterMap_cons]
    · intro e he t ht
      rw [hv] at he
      rcases mem_append.mp he with he | he
      · rcases mem_append.mp he with he | he
        · exact .inl he
        · obtain ⟨_, ht', rfl⟩ := mem_map.mp he
          rw [names] at ht
          cases ht
          exact .inr (Option.mem_toList.mp ht')
      · rw [mem_singleton.mp he] at ht
        cases ht
    · intro hb t ht
      rw [hv] at ht
      simp only [mem_append, mem_map, mem_singleton, reduceCtorEq, and_false, exists_false, or_false] at ht
      exact absurd (hb t ht).2 (by simp [Holding, hd, hr])
    · intro t ht
      simp [ho] at ht

def announced (c c' : Connection W) : Bool := (c'.events.drop c.events.length).any isReply

lemma announced_append (h : c'.events = c.events ++ es) : announced c c' = es.any isReply := by
  rw [announced, h, drop_left]

lemma announced_silent (es : List ConnectionEvent) (h : c'.events = c.events ++ es) (hs : ∀ e ∈ es, isReply e = false) :
    announced c c' = false := by
  rw [announced_append h]
  exact any_eq_false.mpr fun e he => by simp [hs e he]

def Stepped (c : Connection W) (c' : Connection W) : Prop := Step (announced c c') c c'

lemma Staged.stepped (h : Staged c₀ c) (h₀ : c₀.token = none) : Stepped c₀ c := by
  obtain ⟨es, hs, hn⟩ := h.events
  have hi : announced c₀ c = false := by
    refine announced_silent es hs fun e he => ?_
    have := hn e he
    cases e <;> simp_all [names, isReply]
  rw [Stepped, hi]
  exact h.step h₀

lemma Replied.stepped (h : Replied t c c') (hs : c.state = .command) (ht : c.token = some t) : Stepped c c' := by
  have hc : announced c c' = true := announced_append h.events
  rw [Stepped, hc]
  exact h.step hs ht

lemma stepped_of_same (h : Step false c c') (he : c'.events = c.events) : Stepped c c' := by
  have hi : announced c c' = false := announced_silent [] (by simp [he]) (by simp)
  rw [Stepped, hi]
  exact h

lemma failed_stepped (h : Step false c c') (es : List ConnectionEvent) (hv : c'.events = c.events ++ es)
    (hs : ∀ e ∈ es, isReply e = false) (hn : c'.state ≠ .reply) (error : Error) : Stepped c (c'.fail error) := by
  have hp := h.trans (fail_step h.coherent error)
  have hi : announced c (c'.fail error) = false := by
    by_cases hc : c'.state = .closed
    · rw [fail, if_pos hc]
      exact announced_silent es hv hs
    · obtain ⟨-, -, hf⟩ := fail_open hc error
      rw [revoked, if_neg hn, hv, append_assoc] at hf
      refine announced_silent _ hf fun e he => ?_
      rcases mem_append.mp he with he | he
      · exact hs e he
      · rcases mem_pair.mp he with rfl | rfl <;> rfl
  rw [Stepped, hi]
  exact hp

lemma receive_safe (hc : Coherent c) (input : Bytes) : Safe (Stepped c) (receive input) c := by
  have ha : Stepped c c := stepped_of_same (.refl hc) rfl
  refine Post.get (Safe.refuse_bind ha fun hb => Post.tryCatch ?_)
  have hd : (c.state = .handshake ∨ c.state = .auth) ∨ c.state = .command := by
    simp only [acceptsReceive, Bool.not_eq_eq_eq_not, Bool.not_false, Bool.or_eq_true, decide_eq_true_eq] at hb
    exact hb
  rcases hd with hd | hd
  · have hi : Idle c := by rcases hd with hs | hs <;> simp [Idle, hs]
    refine .mono (receiveInner_setup (.start hc hi) hd) (fun _ c' h => h.stepped (hc.idle hi)) ?_
    rintro fault c' ⟨hp, h⟩
    cases fault with
    | panic => exact absurd rfl hp
    | error e =>
      refine .put (.throw ⟨by simp, ?_⟩)
      obtain ⟨es, hg, hn⟩ := h.events
      refine failed_stepped (h.step (hc.idle hi)) es hg (fun e he => ?_) ?_ e
      · have := hn e he
        cases e <;> simp_all [names, isReply]
      · rcases h.idle with hs | hs | hs | hs | hs <;> simp [hs]
  · obtain ⟨t, ht⟩ := Option.isSome_iff_exists.mp (hc.asked (by simp [Idle, hd]) (by simp [hd]))
    refine .mono (receiveInner_command hd ht) ?_ ?_
    · rintro n c' (hf | hr)
      · have hv : c'.events = c.events := by
          obtain ⟨deadline, expiry, rfl⟩ := hf
          rfl
        exact stepped_of_same (hf.step hc hd) hv
      · exact hr.stepped hd ht
    · rintro fault c' ⟨hp, hf⟩
      cases fault with
      | panic => exact absurd rfl hp
      | error e =>
        refine .put (.throw ⟨by simp, ?_⟩)
        have hk := hf.step hc hd
        obtain ⟨deadline, expiry, rfl⟩ := hf
        exact failed_stepped hk [] (by simp) (by simp) (by simp [hd]) e

end Connection

end Turnloop.Mongodb
