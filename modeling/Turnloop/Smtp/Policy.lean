import Turnloop.Smtp.Mirror

/-! With TLS asked for, only the opening of a session is sent in the plain. -/

namespace Turnloop.Smtp

open Lib Connection

variable {L : Library} {c c' c₀ : Connection L} {config : Config} {code : ℕ} {response : Bytes} {es : List Entry}

def State.exposed (tls : Smtp.Tls) : State → Bool
  | .Disconnected => true
  | .Tls => true
  | .Closed => true
  | .Greeting => tls == .Required
  | .Ehlo => tls == .Required
  | .Helo => tls == .Required
  | .StartTls => tls == .Required
  | _ => false

def Plain (tls : Smtp.Tls) (e : Entry) : Prop :=
  (∀ cmd, e = .said cmd → tls = .Required ∧ cmd.opening = true) ∧ e ≠ .told .Ready

def Allowed (tls : Smtp.Tls) (pre : List Entry) (e : Entry) : Prop :=
  tls = .Required ∨ tls = .Implicit → .upgraded ∉ pre → Plain tls e

structure Guarded (c : Connection L) : Prop where
  secured : c.secure = true ↔ .upgraded ∈ c.log
  exposed : c.tlsMandatory = true → c.secure = false → c.state.exposed c.config.tls = true
  allowed : Every (Allowed c.config.tls) c.log

lemma tlsMandatory_iff : c.tlsMandatory = true ↔ c.config.tls = .Required ∨ c.config.tls = .Implicit := by
  simp [tlsMandatory]

lemma opening_exposed (h : c.state.exposed c.config.tls = true) (hs : c.state.opening = true) :
    c.config.tls = .Required := by
  cases he : c.state <;> simp_all [State.exposed, State.opening]

lemma authenticating_exposed {s : State} (hs : s.authenticating = true) : s.exposed tls = false := by
  cases s <;> first | rfl | cases hs

def Entry.report : Entry → Bool
  | .told .Ready => false
  | .told _ => true
  | _ => false

lemma Entry.report_plain (h : e.report = true) : Plain tls e := by
  refine ⟨?_, ?_⟩
  · rintro _ rfl
    cases h
  · rintro rfl
    cases h

lemma aborted_plain : ∃ es, (c.fail e).closeTransport.log = c.log ++ es ∧ ∀ x ∈ es, Plain c.config.tls x := by
  have hf := ((Framed.refl Entry.report c).fail e rfl).closeTransport ⟨rfl, rfl⟩
  obtain ⟨es, hl, he⟩ := hf.log
  exact ⟨es, hl, fun x hx => Entry.report_plain (he x hx)⟩

lemma Replied.plain (h : Replied c code response c') (hm : c.tlsMandatory = true) (hi : c.secure = false)
    (he : c.state.exposed c.config.tls = true) :
    c'.state.exposed c.config.tls = true ∧ ∃ es, c'.log = c.log ++ es ∧ ∀ e ∈ es, Plain c.config.tls e := by
  have ho : ∀ {s : State} {P : Prop}, c.state = s → s.exposed c.config.tls = false → P := by
    intro s P hs hn
    rw [hs, hn] at he
    cases he
  cases h with
  | @opened caps s cmd hs ht hc =>
    have hr := opening_exposed he hs
    refine ⟨?_, [.said cmd], rfl, ?_⟩
    · rcases ht with rfl | rfl | rfl <;> simp [say, setState, State.exposed, hr]
    · simp [Plain, hr, hc]
  | talked hs =>
    rcases hs with ⟨hs, hu | hl⟩ | hs
    · rw [hi] at hu
      cases hu
    · exact (hl (opening_exposed he hs)).elim
    · exact ho rfl (authenticating_exposed hs)
  | stayed hs | mailPipelined hs | mailRefused hs | mailAccepted hs | recipientsRefused hs | recipientsDone hs
  | recipientPipelined hs | recipientNext hs | bodyOpened hs | bodyWritten hs | completed hs | restored hs
  | restarted hs | left hs =>
    exact ho hs rfl
  | upgrade => exact ⟨rfl, [.told .UpgradeTls], rfl, by simp [Plain]⟩
  | ready hs hu =>
    rw [hu hm] at hi
    cases hi
  | aborted =>
    refine ⟨by rw [closeTransport_state]; rfl, ?_⟩
    exact aborted_plain
  | refused hs =>
    rcases hs with hs | hs
    · exact ho hs rfl
    · exact ho hs rfl

namespace Guarded

variable (h : Guarded c)
include h

lemma step (hc : c'.config = c.config) (hu : c'.secure = c.secure) (hl : c'.log = c.log ++ es) (hs : .upgraded ∉ es)
    (hx : c.tlsMandatory = true → c.secure = false → c'.state.exposed c.config.tls = true ∧
      ∀ e ∈ es, Plain c.config.tls e) : Guarded c' where
  secured := by simp [hu, h.secured, hl, hs]
  exposed hm hinsecure := by
    rw [hu] at hinsecure
    rw [tlsMandatory_iff, hc, ← tlsMandatory_iff] at hm
    rw [hc]
    exact (hx hm hinsecure).1
  allowed := by
    rw [hc, hl]
    apply h.allowed.append
    intro _ hp e he hm hb
    have hinsecure : c.secure = false := by
      rw [Bool.eq_false_iff, ne_eq, h.secured]
      exact fun hd => hb (hp.subset hd)
    exact (hx (tlsMandatory_iff.mpr hm) hinsecure).2 e he

lemma replied (hr : Replied (c.takeResponse code) code c.response c') : Guarded c' := by
  have hf := hr.framed
  obtain ⟨es, hl, hs⟩ := hf.log
  have hl' : c'.log = c.log ++ .reply code c.response :: es := by
    rw [hl, takeResponse, List.append_assoc]
    rfl
  have hu : Entry.upgraded ∉ Entry.reply code c.response :: es := by
    intro hm
    rcases List.mem_cons.mp hm with hm | hm
    · cases hm
    · cases hs _ hm
  apply h.step hf.config hf.secure hl' hu
  intro ha hi
  obtain ⟨ht, es', hl'', hp⟩ := hr.plain ha hi (h.exposed ha hi)
  obtain rfl : es = es' := List.append_cancel_left (hl.symm.trans hl'')
  refine ⟨ht, fun e he => ?_⟩
  rcases List.mem_cons.mp he with rfl | he
  · exact ⟨by rintro _ ⟨⟩, by rintro ⟨⟩⟩
  · exact hp e he

lemma upgrade (hc : c'.config = c.config) (he : c'.secure = true) (hl : c'.log = c.log ++ .upgraded :: es) :
    Guarded c' where
  secured := by simp [he, hl]
  exposed _ hinsecure := by
    rw [he] at hinsecure
    cases hinsecure
  allowed := by
    rw [hc, hl, List.append_cons]
    have hu : Every (Allowed c.config.tls) (c.log ++ [Entry.upgraded]) :=
      h.allowed.concat fun _ _ => ⟨nofun, nofun⟩
    apply hu.append
    intro _ hp e _ _ hb
    exact (hb (hp.subset (by simp))).elim

lemma unexposed (hs : c.state = s) (hn : ∀ tls, s.exposed tls = false) {P : Prop}
    (hm : c.tlsMandatory = true) (hi : c.secure = false) : P := by
  have he := h.exposed hm hi
  rw [hs, hn] at he
  cases he

lemma noted (hc : c'.config = c.config) (hu : c'.secure = c.secure)
    (hs : c'.state = c.state) (hl : c'.log = c.log ++ [e]) (hp : e ≠ .upgraded) (he : e.outward = false) :
    Guarded c' := by
  refine h.step hc hu hl (by simpa using hp.symm) fun hm hi => ⟨?_, ?_⟩
  · rw [hs]
    exact h.exposed hm hi
  · intro x hx
    obtain rfl := List.mem_singleton.mp hx
    refine ⟨?_, ?_⟩
    · rintro _ rfl
      cases he
    · rintro rfl
      cases he

lemma framed (hf : Framed Entry.report c c') (hs : c'.state = .Closed) : Guarded c' := by
  obtain ⟨_, hl, hb⟩ := hf.log
  refine h.step hf.config hf.secure hl (fun hm => nomatch hb _ hm) fun _ _ => ⟨?_, ?_⟩
  · rw [hs]
    rfl
  · exact fun e he => Entry.report_plain (hb e he)

lemma moved (ho : Moved c c') : Guarded c' := by
  have hc := Framed.refl Entry.report c
  cases ho with
  | aside =>
    exact h.step rfl rfl (List.append_nil _).symm (by simp) fun hm hi => ⟨h.exposed hm hi, by simp⟩
  | connected hs hl =>
    refine h.step rfl rfl (List.append_nil _).symm (by simp) fun ha _ => ⟨?_, by simp⟩
    have hr : c.config.tls = .Required := (tlsMandatory_iff.mp ha).resolve_right hl
    simp [setState, State.exposed, hr]
  | wrapped => exact h.step rfl rfl rfl (by simp) fun _ _ => ⟨rfl, by simp [Plain]⟩
  | unwrapped => exact h.upgrade rfl rfl rfl
  | upgraded => exact h.upgrade rfl rfl c.secured_ehlo_log
  | piece | line | excess => exact h.noted rfl rfl rfl rfl (by rintro ⟨⟩) rfl
  | answered hd he hy => exact h.replied hy
  | @intruded c₁ code e hd he hy =>
    have hf : Framed Entry.report c₁ (c₁.fail e).closeTransport :=
      ((Framed.refl _ c₁).fail e rfl).closeTransport ⟨rfl, rfl⟩
    exact (h.replied hy).framed hf closeTransport_state
  | aborted => exact h.framed ((hc.fail _ rfl).closeTransport ⟨rfl, rfl⟩) closeTransport_state
  | closed => exact h.framed (hc.closeTransport ⟨rfl, rfl⟩) closeTransport_state
  | wrote hs | reset hs | quit hs => exact h.step rfl rfl rfl (by simp) (h.unexposed hs fun _ => rfl)

lemma began {token : ℕ} (hb : Began token c c') : Guarded c' := by
  cases hb with
  | @intro _ _ _ _ hs =>
    rw [sayAll_eq]
    refine h.step rfl rfl (List.append_assoc ..) ?_ (h.unexposed hs fun _ => rfl)
    simp

end Guarded

lemma Moved.same_config (h : Moved c c') : c'.config = c.config := by
  have hc := Framed.refl Entry.outward c
  cases h with
  | answered hd hl hr => exact hr.framed.config
  | intruded hd hl hr => exact ((hr.framed.fail _ rfl).closeTransport ⟨rfl, rfl⟩).config
  | aborted => exact ((hc.fail _ rfl).closeTransport ⟨rfl, rfl⟩).config
  | closed => exact (hc.closeTransport ⟨rfl, rfl⟩).config
  | _ => rfl

lemma after_guarded (hn : Connection.new config = .ok c₀) (calls : List Call) :
    (c₀.after calls).config = config ∧ Guarded (c₀.after calls) := by
  apply after_invariant (P := fun c => c.config = config ∧ Guarded c) hn
  · exact ⟨rfl, by simp, fun _ _ => rfl, Every.nil⟩
  · exact fun _ h hm => ⟨hm.same_config.trans h.1, h.2.moved hm⟩
  · intro c _ _ _ h hb
    refine ⟨?_, h.2.began hb⟩
    cases hb with
    | intro =>
      rw [sayAll_eq]
      exact h.1

theorem tls_policy (hnew : Connection.new config = .ok c₀) (htls : config.tls = .Required ∨ config.tls = .Implicit)
    (calls : List Call) :
    (c₀.after calls).output <:+ written (c₀.after calls).log
    ∧ (c₀.after calls).events <:+ told (c₀.after calls).log
    ∧ ∀ (pre : List Entry) (e : Entry) (post : List Entry), (c₀.after calls).log = pre ++ e :: post →
      .upgraded ∉ pre → e ≠ .told .Ready
        ∧ ∀ cmd, e = .said cmd → config.tls = .Required
          ∧ ((∃ name, cmd = .ehlo name) ∨ (∃ name, cmd = .helo name) ∨ cmd = .starttls) := by
  have hm := after_mirrored hnew calls
  have hg := after_guarded hnew calls
  refine ⟨hm.output, hm.events, fun pre e post hl hp => ?_⟩
  have ha := hg.2.allowed pre e post hl
  rw [hg.1] at ha
  obtain ⟨hs, hr⟩ := ha htls hp
  refine ⟨hr, fun cmd hc => ?_⟩
  obtain ⟨he, ho⟩ := hs cmd hc
  refine ⟨he, ?_⟩
  cases cmd with
  | ehlo name => exact .inl ⟨name, rfl⟩
  | helo name => exact .inr (.inl ⟨name, rfl⟩)
  | starttls => exact .inr (.inr rfl)
  | _ => cases ho

def temptation : List Call :=
  [.connected 0, .receive (ascii "220 a\r\n") 0, .receive (ascii "250-a\r\n250 AUTH PLAIN\r\n") 0]

theorem tls_policy_temptation :
    (Connection.after temptation { config := { tls := .Required } } : Connection .sample).state = .Closed
    ∧ ∀ (pre : List Entry) (e : Entry) (post : List Entry),
        (Connection.after temptation { config := { tls := .Required } } : Connection .sample).log = pre ++ e :: post →
        .upgraded ∉ pre → e ≠ .told .Ready := by
  have hn : Connection.new { tls := .Required } = .ok ({ config := { tls := .Required } } : Connection .sample) := by
    simp only [Connection.new]
    rw [if_neg (by decide +kernel)]
  refine ⟨by decide +kernel, fun pre e post hl hp => ?_⟩
  exact ((tls_policy hn (.inl rfl) temptation).2.2 pre e post hl hp).1

end Turnloop.Smtp
