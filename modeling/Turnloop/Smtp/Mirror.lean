import Turnloop.Smtp.Settlement

/-! What is left to be sent and to be told is the end of what the history has of it. -/

namespace Turnloop.Smtp

open Lib Connection List

variable {L : Library} {c c' c₀ : Connection L} {config : Config} {code : ℕ} {response : Bytes} {e : Entry}

def Entry.event : Entry → List Event
  | .told event => [event]
  | _ => []

def Entry.bytes : Entry → Bytes
  | .said cmd => cmd.bytes
  | _ => []

def told (log : List Entry) : List Event := log.flatMap Entry.event

def written (log : List Entry) : Bytes := log.flatMap Entry.bytes

structure Mirrored (c : Connection L) : Prop where
  pos : c.txPos ≤ c.tx.length
  output : c.output <:+ written c.log
  events : c.events <:+ told c.log

lemma told_concat (log : List Entry) (e : Entry) : told (log ++ [e]) = told log ++ e.event := by
  simp [told]

lemma written_concat (log : List Entry) (e : Entry) : written (log ++ [e]) = written log ++ e.bytes := by
  simp [written]

namespace Mirrored

variable (h : Mirrored c)
include h

lemma of_eq (hx : c'.tx = c.tx) (hp : c'.txPos = c.txPos) (he : c'.events = c.events) (hl : c'.log = c.log) :
    Mirrored c' := by
  have ho : c'.output = c.output := by rw [Connection.output, hx, hp, Connection.output]
  refine ⟨?_, ?_, ?_⟩
  · rw [hx, hp]
    exact h.pos
  · rw [ho, hl]
    exact h.output
  · rw [he, hl]
    exact h.events

lemma say (cmd : Command) : Mirrored (c.say cmd) := by
  have ho : (c.say cmd).output = c.output ++ cmd.bytes := drop_append_of_le_length h.pos
  have hl : (c.say cmd).log = c.log ++ [Entry.said cmd] := rfl
  obtain ⟨before, hb⟩ := h.output
  refine ⟨?_, ⟨before, ?_⟩, ?_⟩
  · have hp := h.pos
    simp only [Connection.say, length_append]
    omega
  · rw [ho, hl, written_concat, ← hb, append_assoc]
    rfl
  · have he : (Entry.said cmd).event = [] := rfl
    rw [hl, told_concat, he, append_nil]
    exact h.events

lemma tell (event : Event) : Mirrored (c.tell event) := by
  have hl : (c.tell event).log = c.log ++ [Entry.told event] := rfl
  have he : (c.tell event).events = c.events ++ [event] := rfl
  obtain ⟨before, hb⟩ := h.events
  refine ⟨h.pos, ?_, ⟨before, ?_⟩⟩
  · have hy : (Entry.told event).bytes = [] := rfl
    rw [hl, written_concat, hy, append_nil]
    exact h.output
  · rw [he, hl, told_concat, ← hb, append_assoc]
    rfl

lemma noted (hx : c'.tx = c.tx) (hp : c'.txPos = c.txPos) (hv : c'.events = c.events)
    (hl : c'.log = c.log ++ [e]) (he : e.outward = false) : Mirrored c' := by
  have hb : e.bytes = [] := by
    cases e with
    | said => cases he
    | _ => rfl
  have hc : e.event = [] := by
    cases e with
    | told => cases he
    | _ => rfl
  have ho : c'.output = c.output := by rw [Connection.output, hx, hp, Connection.output]
  refine ⟨?_, ?_, ?_⟩
  · rw [hx, hp]
    exact h.pos
  · rw [ho, hl, written_concat, hb, append_nil]
    exact h.output
  · rw [hv, hl, told_concat, hc, append_nil]
    exact h.events

lemma fail (e : Error) : Mirrored (c.fail e) := (h.tell _).of_eq rfl rfl rfl rfl

lemma closeTransport : Mirrored c.closeTransport := by
  simp only [Connection.closeTransport]
  split_ifs
  · exact h
  · apply Mirrored.tell
    apply Mirrored.tell
    exact ⟨Nat.le_refl _, nil_suffix, h.events⟩

lemma failAndReset (e : Error) : Mirrored (c.failAndReset e) :=
  ((h.fail e).say .rset).of_eq rfl rfl rfl rfl

lemma settleRecipient (code : ℕ) (response recipient : Bytes) :
    Mirrored (c.settleRecipient code response recipient) := by
  rw [settleRecipient_eq]
  exact h.of_eq rfl rfl rfl rfl

lemma replied (hr : Replied c code response c') : Mirrored c' := by
  have hs : ∀ s, Mirrored (c.setState s) := fun s => h.of_eq rfl rfl rfl rfl
  have hp : ∀ caps raw encoded, Mirrored (c.prepared caps raw encoded) := fun _ _ _ => h.of_eq rfl rfl rfl rfl
  have ht : ∀ caps raw encoded s, Mirrored ((c.prepared caps raw encoded).setState s) :=
    fun _ _ _ _ => h.of_eq rfl rfl rfl rfl
  have hm : Mirrored (c.mailAnswered code response) := h.of_eq rfl rfl rfl rfl
  have hm' : Mirrored (c.mailAnswered code response).takeMailError := h.of_eq rfl rfl rfl rfl
  cases hr with
  | opened | talked => exact (ht _ _ _ _).say _
  | stayed => exact h
  | upgrade | restarted => exact (hs _).tell _
  | ready => exact (ht _ _ _ _).tell _
  | aborted => exact ((hp _ _ _).fail _).closeTransport
  | refused => exact h.failAndReset _
  | mailPipelined => exact hm
  | mailRefused => exact hm'.failAndReset _
  | mailAccepted => exact hm.say _
  | recipientsRefused =>
    apply Mirrored.failAndReset
    exact (h.settleRecipient code response _).of_eq rfl rfl rfl rfl
  | recipientsDone =>
    exact ((h.settleRecipient code response _).say .data).of_eq rfl rfl rfl rfl
  | recipientPipelined => exact h.settleRecipient code response _
  | recipientNext => exact (h.settleRecipient code response _).say _
  | bodyOpened =>
    apply Mirrored.tell
    exact h.of_eq rfl rfl rfl rfl
  | bodyWritten => exact (hs _).say _
  | completed => exact (h.tell _).of_eq rfl rfl rfl rfl
  | restored => exact h.of_eq rfl rfl rfl rfl
  | left => exact h.closeTransport

lemma moved (hm : Moved c c') : Mirrored c' := by
  have ha : ∀ code, Mirrored (c.takeResponse code) := fun code => h.noted rfl rfl rfl rfl rfl
  have he : Mirrored c.secured := h.noted rfl rfl rfl rfl rfl
  cases hm with
  | aside ho hv hd hp => exact ⟨hp h.pos, ho.trans h.output, hv.trans h.events⟩
  | connected => exact h.of_eq rfl rfl rfl rfl
  | wrapped =>
    apply Mirrored.tell
    exact h.of_eq rfl rfl rfl rfl
  | unwrapped => exact he.of_eq rfl rfl rfl rfl
  | upgraded =>
    apply Mirrored.say
    exact he.of_eq rfl rfl rfl rfl
  | piece | line | excess => exact h.noted rfl rfl rfl rfl rfl
  | answered hc hl hr => exact (ha _).replied hr
  | intruded hc hl hr => exact (((ha _).replied hr).fail _).closeTransport
  | aborted => exact (h.fail _).closeTransport
  | closed => exact h.closeTransport
  | wrote | reset | quit => exact (h.say _).of_eq rfl rfl rfl rfl

lemma sayAll (cmds : List Command) : Mirrored (c.sayAll cmds) := by
  induction cmds generalizing c with
  | nil => exact h
  | cons cmd cmds ih => exact ih (h.say cmd)

lemma began {token : ℕ} (hb : Began token c c') : Mirrored c' := by
  cases hb with
  | intro =>
    have hs : ∀ token envelope messageId, Mirrored (c.startMessage token envelope messageId) :=
      fun _ _ _ => h.noted rfl rfl rfl rfl rfl
    exact ((hs _ _ _).sayAll _).of_eq rfl rfl rfl rfl

end Mirrored

lemma after_mirrored (hn : Connection.new config = .ok c₀) (calls : List Call) : Mirrored (c₀.after calls) := by
  apply after_invariant hn
  · exact ⟨Nat.le_refl _, nil_suffix, nil_suffix⟩
  · exact fun _ h hm => h.moved hm
  · exact fun _ h hb => h.began hb

end Turnloop.Smtp
