import Turnloop.Lib.History
import Turnloop.Smtp.Moves

/-! Messages: how each one is settled, and by what. -/

namespace Turnloop.Smtp

open Lib Connection List

variable {L : Library} {c c' : Connection L} {code : ℕ} {response : Bytes} {log es : List Entry} {e : Entry}

structure Progress where
  token : ℕ
  envelope : Envelope
  commands : List Command
  replies : List (ℕ × Bytes)

@[simps] def Progress.said (cmd : Command) (p : Progress) : Progress := { p with commands := p.commands ++ [cmd] }

@[simps] def Progress.heard (reply : ℕ × Bytes) (p : Progress) : Progress := { p with replies := p.replies ++ [reply] }

def advance (p : Option Progress) : Entry → Option Progress
  | .began token envelope => some ⟨token, envelope, [], []⟩
  | .said cmd => p.map (Progress.said cmd)
  | .reply code response => p.map (Progress.heard (code, response))
  | .told (.Sent ..) => none
  | .told (.Failed ..) => none
  | _ => p

def progress (log : List Entry) : Option Progress := log.foldl advance none

def Entry.begins : Entry → Option ℕ
  | .began token _ => some token
  | _ => none

def Entry.settles : Entry → Option ℕ
  | .told (.Sent token _) => some token
  | .told (.Failed token ..) => token
  | _ => none

def begun (log : List Entry) : List ℕ := log.filterMap Entry.begins

def settled (log : List Entry) : List ℕ := log.filterMap Entry.settles

def acceptable (code : ℕ) : Bool := 250 ≤ code && code ≤ 252

def acceptedOf (recipients : List Bytes) (replies : List (ℕ × Bytes)) : List Bytes :=
  ((recipients.zip replies).filter fun p => acceptable p.2.1).map Prod.fst

def rejectedOf (recipients : List Bytes) (replies : List (ℕ × Bytes)) : List Rejection :=
  ((recipients.zip replies).filter fun p => !acceptable p.2.1).map fun p => ⟨p.1, recipientError p.2.1 p.2.2⟩

def Wrote (p : Progress) (recipients : List Bytes) (more : List Command) : Prop :=
  ∃ size eightBit, p.commands = .mail p.envelope.from_ size eightBit (utf8 p.envelope) :: (recipients.map .rcpt ++ more)

structure Approved (envelope : Envelope) (mail : ℕ × Bytes) (rcpts : List (ℕ × Bytes)) : Prop where
  mail : mail.1 = 250
  length : rcpts.length = envelope.to_.length
  nonempty : acceptedOf envelope.to_ rcpts ≠ []

structure Delivered (p : Progress) (token : ℕ) (info : SendInfo) : Prop where
  token : p.token = token
  envelope : p.envelope = info.envelope
  commands : ∃ contents, Wrote p p.envelope.to_ (.data :: List.map .content contents)
  replies : ∃ mail rcpts text, p.replies = mail :: (rcpts ++ [(354, text), (250, info.response)]) ∧
    Approved p.envelope mail rcpts
    ∧ info.accepted = acceptedOf p.envelope.to_ rcpts ∧ info.rejected = rejectedOf p.envelope.to_ rcpts

def Lawful (pre : List Entry) : Entry → Prop
  | .told (.Sent token info) => ∃ p, progress pre = some p ∧ Delivered p token info
  | .said .data => ∃ p mail rcpts, progress pre = some p ∧ Wrote p p.envelope.to_ [] ∧ p.replies = mail :: rcpts
      ∧ Approved p.envelope mail rcpts
  | _ => True

def Entry.calm : Entry → Bool
  | .began .. => false
  | .said .data => false
  | .told (.Sent ..) => false
  | .told (.Failed ..) => false
  | _ => true

lemma progress_concat : progress (log ++ [e]) = advance (progress log) e := by
  simp [progress]

namespace Entry

lemma advance_calm (he : e.calm = true) : advance none e = none := by
  cases e with
  | began => cases he
  | told event => cases event <;> rfl
  | _ => rfl

lemma begins_calm (he : e.calm = true) : e.begins = none := by
  cases e with
  | began => cases he
  | _ => rfl

lemma settles_calm (he : e.calm = true) : e.settles = none := by
  cases e with
  | told event =>
    cases event with
    | Sent | Failed => cases he
    | _ => rfl
  | _ => rfl

lemma lawful_calm (he : e.calm = true) : Lawful pre e := by
  cases e with
  | said cmd =>
    cases cmd with
    | data => cases he
    | _ => trivial
  | told event =>
    cases event with
    | Sent => cases he
    | _ => trivial
  | _ => trivial

end Entry

lemma progress_calm (h : progress log = none) (he : ∀ e ∈ es, e.calm = true) : progress (log ++ es) = none := by
  induction es generalizing log with
  | nil => rwa [append_nil]
  | cons e es ih =>
    rw [append_cons]
    apply ih
    · rw [progress_concat, h, Entry.advance_calm (he e mem_cons_self)]
    · exact fun e' he' => he e' (mem_cons_of_mem e he')

lemma begun_concat : begun (log ++ [e]) = begun log ++ e.begins.toList := by
  rw [begun, filterMap_append]
  cases h : e.begins <;> simp [begun, h]

lemma settled_concat : settled (log ++ [e]) = settled log ++ e.settles.toList := by
  rw [settled, filterMap_append]
  cases h : e.settles <;> simp [settled, h]

lemma begun_calm (hs : ∀ e ∈ es, e.calm = true) : begun (log ++ es) = begun log := by
  rw [begun, begun, filterMap_append, append_right_eq_self, filterMap_eq_nil_iff]
  exact fun e he => Entry.begins_calm (hs e he)

lemma settled_calm (hs : ∀ e ∈ es, e.calm = true) : settled (log ++ es) = settled log := by
  rw [settled, settled, filterMap_append, append_right_eq_self, filterMap_eq_nil_iff]
  exact fun e he => Entry.settles_calm (hs e he)

structure Booked (c : Connection L) : Prop where
  ledger : begun c.log = settled c.log ++ c.token.toList
  lawful : Every Lawful c.log

lemma Booked.calm (h : Booked c) (hn : c'.token = c.token) (hl : c'.log = c.log ++ es)
    (hs : ∀ e ∈ es, e.calm = true) : Booked c' where
  ledger := by rw [hl, hn, begun_calm hs, settled_calm hs, h.ledger]
  lawful := by
    rw [hl]
    exact h.lawful.append fun pre _ e he => Entry.lawful_calm (hs e he)

lemma Booked.same (h : Booked c) (hn : c'.token = c.token) (hl : c'.log = c.log) : Booked c' := by
  have hl' : c'.log = c.log ++ [] := by rw [hl, append_nil]
  exact h.calm hn hl' (by simp)

lemma Booked.failed (h : Booked c) (e : Error) : Booked (c.fail e) where
  ledger := by
    simp only [fail, Connection.tell, begun_concat, settled_concat, Entry.begins, Entry.settles,
      Option.toList_none, append_nil]
    exact h.ledger
  lawful := h.lawful.concat trivial

inductive Stage (c : Connection L) (p : Progress) : Prop
  | mail (hs : c.state = .Mail) (hreplies : p.replies = [])
    (herror : c.mailError = none) (hindex : c.recipientIndex = 0)
      (haccepted : c.accepted = []) (hrejected : c.rejected = [])
      (hwrote : Wrote p (if c.capabilities.pipelining then p.envelope.to_ else []) [])
  | recipients {mail : ℕ × Bytes} {rcpts : List (ℕ × Bytes)} (hs : c.state = .Recipients)
      (hreplies : p.replies = mail :: rcpts) (hlength : rcpts.length = c.recipientIndex)
      (hmore : c.recipientIndex < p.envelope.to_.length) (herror : c.mailError = none ↔ mail.1 = 250)
      (haccepted : c.mailError = none → c.accepted = acceptedOf p.envelope.to_ rcpts)
      (hrejected : c.mailError = none → c.rejected = rejectedOf p.envelope.to_ rcpts)
      (hwrote : Wrote p (if c.capabilities.pipelining then p.envelope.to_ else p.envelope.to_.take
        (c.recipientIndex + 1)) [])
  | data {mail : ℕ × Bytes} {rcpts : List (ℕ × Bytes)} (hs : c.state = .Data) (hreplies : p.replies = mail :: rcpts)
      (happroved : Approved p.envelope mail rcpts) (haccepted : c.accepted = acceptedOf p.envelope.to_ rcpts)
      (hrejected : c.rejected = rejectedOf p.envelope.to_ rcpts) (hwrote : Wrote p p.envelope.to_ [.data])
  | body {mail : ℕ × Bytes} {rcpts : List (ℕ × Bytes)} {text : Bytes} {contents : List Bytes} (hs : c.state = .Body)
      (hreplies : p.replies = mail :: (rcpts ++ [(354, text)])) (happroved : Approved p.envelope mail rcpts)
      (haccepted : c.accepted = acceptedOf p.envelope.to_ rcpts)
      (hrejected : c.rejected = rejectedOf p.envelope.to_ rcpts)
      (hwrote : Wrote p p.envelope.to_ (.data :: contents.map .content))

structure Current (c : Connection L) (p : Progress) : Prop where
  token : c.token = some p.token
  envelope : c.envelope = some p.envelope
  nonempty : p.envelope.to_ ≠ []
  stage : Stage c p

structure Accounted (c : Connection L) : Prop extends Booked c where
  idle : c.state.sending = false → c.token = none ∧ progress c.log = none
  busy : c.state.sending = true → ∃ p, progress c.log = some p ∧ Current c p

lemma Accounted.calm (h : Accounted c) (hs : c.state.sending = false) (hs' : c'.state.sending = false)
    (hn : c'.token = c.token) (hl : c'.log = c.log ++ es) (he : ∀ e ∈ es, e.calm = true) : Accounted c' where
  toBooked := h.toBooked.calm hn hl he
  idle _ := by
    obtain ⟨ho, hp⟩ := h.idle hs
    exact ⟨hn.trans ho, by rw [hl, progress_calm hp he]⟩
  busy hbusy := by
    rw [hs'] at hbusy
    cases hbusy

lemma Accounted.of_fail (h : Booked c) {e : Error} (hs : c'.state.sending = false) (hn : c'.token = none)
    (hl : c'.log = (c.fail e).log ++ es) (he : ∀ e ∈ es, e.calm = true) : Accounted c' where
  toBooked := (h.failed e).calm hn hl he
  idle _ := by
    refine ⟨hn, ?_⟩
    rw [hl]
    apply progress_calm _ he
    simp only [fail, Connection.tell, progress_concat]
    rfl
  busy hbusy := by
    rw [hs] at hbusy
    cases hbusy

lemma closeTransport_log (c : Connection L) : ∃ es, c.closeTransport.log = c.log ++ es ∧ ∀ e ∈ es, e.calm = true := by
  simp only [closeTransport]
  split_ifs
  · exact ⟨[], by simp, by simp⟩
  · exact ⟨[.told .CloseTransport, .told .Closed], by simp [Connection.tell], by simp [Entry.calm]⟩

@[simp] lemma closeTransport_token {c : Connection L} : c.closeTransport.token = c.token := by
  simp only [closeTransport]
  split_ifs <;> rfl

lemma Accounted.aborted (h : Booked c) (e : Error) : Accounted (c.fail e).closeTransport := by
  obtain ⟨_, hl, he⟩ := closeTransport_log (c.fail e)
  apply Accounted.of_fail h
  · rw [closeTransport_state]
    rfl
  · rw [closeTransport_token]
    rfl
  · exact hl
  · exact he

lemma Accounted.reset (h : Booked c) (e : Error) : Accounted (c.failAndReset e) := by
  have hl : (c.failAndReset e).log = (c.fail e).log ++ [Entry.said .rset] := rfl
  exact .of_fail h rfl rfl hl (by simp [Entry.calm])

section

variable {p : Progress} {recipients : List Bytes} {rcpts : List (ℕ × Bytes)} {recipient : Bytes} {reply : ℕ × Bytes}

lemma zip_concat (hrc : recipients[rcpts.length]? = some recipient) :
    recipients.zip (rcpts ++ [reply]) = recipients.zip rcpts ++ [(recipient, reply)] := by
  induction rcpts generalizing recipients with
  | nil =>
    cases recipients with
    | nil => simp at hrc
    | cons first =>
      obtain rfl : first = recipient := by simpa using hrc
      simp
  | cons first rcpts ih =>
    cases recipients with
    | nil => simp at hrc
    | cons _ rest =>
      have hr : rest[rcpts.length]? = some recipient := by simpa using hrc
      simp [ih hr]

lemma acceptable_iff : acceptable code = true ↔ 250 ≤ code ∧ code ≤ 252 := by
  simp [acceptable]

section

variable (hrc : recipients[rcpts.length]? = some recipient)
include hrc

lemma acceptedOf_concat : acceptedOf recipients (rcpts ++ [reply])
      = acceptedOf recipients rcpts ++ bif acceptable reply.1 then [recipient] else [] := by
  simp only [acceptedOf, zip_concat hrc, filter_append, map_append, filter_singleton]
  cases acceptable reply.1 <;> rfl

lemma rejectedOf_concat : rejectedOf recipients (rcpts ++ [reply])
      = rejectedOf recipients rcpts ++
        bif acceptable reply.1 then [] else [⟨recipient, recipientError reply.1 reply.2⟩] := by
  simp only [rejectedOf, zip_concat hrc, filter_append, map_append, filter_singleton]
  cases acceptable reply.1 <;> rfl

lemma settleRecipient_lists (he : c.mailError = none)
    (ha : c.accepted = acceptedOf recipients rcpts) (hr : c.rejected = rejectedOf recipients rcpts) :
    (c.settleRecipient code response recipient).accepted = acceptedOf recipients (rcpts ++ [(code, response)])
      ∧ (c.settleRecipient code response recipient).rejected = rejectedOf recipients (rcpts ++ [(code, response)]) := by
  rw [acceptedOf_concat hrc, rejectedOf_concat hrc, ← ha, ← hr]
  simp only [settleRecipient, ← acceptable_iff, he, and_true]
  cases acceptable code <;> simp

end

lemma Wrote.heard (h : Wrote p recipients more) : Wrote (p.heard reply) recipients more := h

lemma Wrote.said (h : Wrote p recipients more) (cmd : Command) : Wrote (p.said cmd) recipients (more ++ [cmd]) := by
  obtain ⟨si, ei, hc⟩ := h
  exact ⟨si, ei, by simp [Progress.said, hc]⟩

lemma Wrote.rcpt (h : Wrote p recipients []) (recipient : Bytes) :
    Wrote (p.said (.rcpt recipient)) (recipients ++ [recipient]) [] := by
  obtain ⟨si, ei, hc⟩ := h
  exact ⟨si, ei, by simp [Progress.said, hc]⟩

end

lemma Accounted.under (h : Booked c) (hs : c.state.sending = true) (hp : progress c.log = some p) (hc : Current c p) :
    Accounted c where
  toBooked := h
  idle hidle := by
    rw [hs] at hidle
    cases hidle
  busy _ := ⟨p, hp, hc⟩

structure Heard (c : Connection L) (code : ℕ) (response : Bytes) (p : Progress) : Prop where
  booked : Booked c
  advanced : progress c.log = some (p.heard (code, response))
  current : Current c p

lemma Accounted.heard (h : Accounted c) (hs : c.state.sending = true) (code : ℕ) :
    ∃ p, Heard (c.takeResponse code) code c.response p := by
  obtain ⟨p, hp, hc⟩ := h.busy hs
  have hl : (c.takeResponse code).log = c.log ++ [Entry.reply code c.response] := rfl
  refine ⟨p, h.toBooked.calm rfl hl (by simp [Entry.calm]), ?_, hc.token, hc.envelope, hc.nonempty, ?_⟩
  · rw [hl, progress_concat, hp]
    rfl
  · cases hc.stage with
    | mail hs hr he hi ha hd hw =>
      exact .mail hs hr he hi ha hd hw
    | recipients hs hr hh hm he ha hd hw =>
      exact .recipients hs hr hh hm he ha hd hw
    | data hs hr ho ha hd hw => exact .data hs hr ho ha hd hw
    | body hs hr ho ha hd hw => exact .body hs hr ho ha hd hw

namespace Heard

variable {p : Progress} {envelope : Envelope} {recipient next : Bytes}

section

variable (h : Heard c code response p)
include h

lemma mailPipelined (hs : c.state = .Mail) (hp : c.capabilities.pipelining = true) :
    Accounted (c.mailAnswered code response) := by
  obtain ⟨_, hr, he, hi, ha, hd, hw⟩ | ⟨hs', _⟩ | ⟨hs', _⟩ | ⟨hs', _⟩ := h.current.stage
  · have hb : Booked (c.mailAnswered code response) := h.booked.same rfl rfl
    apply Accounted.under hb rfl h.advanced
    refine ⟨h.current.token, h.current.envelope, h.current.nonempty, ?_⟩
    have hh : (p.heard (code, response)).replies = (code, response) :: [] := by simp [hr]
    apply Stage.recipients rfl hh
    · exact hi.symm
    · simpa [mailAnswered, hi, length_pos_iff] using h.current.nonempty
    · simp only [mailAnswered, he]
      split_ifs with hc <;> simp [hc]
    · exact fun _ => by simp [mailAnswered, ha, acceptedOf]
    · exact fun _ => by simp [mailAnswered, hd, rejectedOf]
    · simpa only [mailAnswered, hp, if_true, Progress.heard_envelope] using hw.heard
  all_goals exact absurd (hs.symm.trans hs') (by decide)

lemma mailAccepted (hs : c.state = .Mail) (hp : c.capabilities.pipelining = false)
    (hc : (c.mailAnswered code response).mailError = none) (he : c.envelope = some envelope)
    (hrc : envelope.to_[0]? = some recipient) :
    Accounted ((c.mailAnswered code response).say (.rcpt recipient)) := by
  obtain rfl : p.envelope = envelope := Option.some.inj (h.current.envelope.symm.trans he)
  obtain ⟨_, hr, ho, hi, ha, hd, hw⟩ | ⟨hs', _⟩ | ⟨hs', _⟩ | ⟨hs', _⟩ := h.current.stage
  · have hl : ((c.mailAnswered code response).say (.rcpt recipient)).log = c.log ++ [Entry.said (.rcpt recipient)] :=
      rfl
    have hb : Booked ((c.mailAnswered code response).say (.rcpt recipient)) :=
      h.booked.calm rfl hl (by simp [Entry.calm])
    have hg : progress ((c.mailAnswered code response).say (.rcpt recipient)).log
        = some ((p.heard (code, response)).said (.rcpt recipient)) := by
      rw [hl, progress_concat, h.advanced]
      rfl
    apply Accounted.under hb rfl hg
    refine ⟨h.current.token, h.current.envelope, h.current.nonempty, ?_⟩
    have hh : ((p.heard (code, response)).said (.rcpt recipient)).replies = (code, response) :: [] := by simp [hr]
    apply Stage.recipients rfl hh
    · exact hi.symm
    · simpa [mailAnswered, say, hi, length_pos_iff] using h.current.nonempty
    · have hc' : code = 250 := by
        by_contra hne
        simp [mailAnswered, hne] at hc
      simp [say, hc', mailAnswered, ho]
    · exact fun _ => by simp [mailAnswered, say, ha, acceptedOf]
    · exact fun _ => by simp [mailAnswered, say, hd, rejectedOf]
    · have hf : p.envelope.to_.take (c.recipientIndex + 1) = [recipient] := by
        rw [hi, take_add_one, hrc]
        rfl
      simp only [mailAnswered, say, hp, Bool.false_eq_true, if_false, Progress.said_envelope,
        Progress.heard_envelope, hf] at hw ⊢
      exact hw.heard.rcpt recipient
  all_goals exact absurd (hs.symm.trans hs') (by decide)

lemma recipientAnswered (hs : c.state = .Recipients) (he : c.envelope = some envelope)
    (hrc : envelope.to_[c.recipientIndex]? = some recipient) :
    p.envelope = envelope ∧ ∃ mail rcpts, p.replies = mail :: rcpts ∧ rcpts.length = c.recipientIndex
      ∧ (c.mailError = none ↔ mail.1 = 250)
      ∧ (c.mailError = none → (c.settleRecipient code response recipient).accepted
          = acceptedOf envelope.to_ (rcpts ++ [(code, response)])
        ∧ (c.settleRecipient code response recipient).rejected = rejectedOf envelope.to_ (rcpts ++ [(code, response)]))
      ∧ Wrote p (if c.capabilities.pipelining then envelope.to_ else envelope.to_.take (c.recipientIndex + 1)) [] := by
  obtain rfl : p.envelope = envelope := Option.some.inj (h.current.envelope.symm.trans he)
  obtain ⟨hs', _⟩ | ⟨hs', hr, hl, hm, ho, ha, hd, hw⟩ | ⟨hs', _⟩ | ⟨hs', _⟩ :=
    h.current.stage
  case recipients mail rcpts =>
    refine ⟨rfl, mail, rcpts, hr, hl, ho, fun hn => ?_, hw⟩
    rw [← hl] at hrc
    exact settleRecipient_lists hrc hn (ha hn) (hd hn)
  all_goals exact absurd (hs.symm.trans hs') (by decide)

lemma recipientsDone (hs : c.state = .Recipients) (he : c.envelope = some envelope)
    (hrc : envelope.to_[c.recipientIndex]? = some recipient) (hl : c.recipientIndex + 1 = envelope.to_.length)
    (hr : c.mailError = none) (ha : (c.settleRecipient code response recipient).accepted ≠ []) :
    Accounted (((c.settleRecipient code response recipient).say .data).setState .Data) := by
  obtain ⟨rfl, mail, rcpts, hp, hh, hm, hi, hw⟩ := h.recipientAnswered hs he hrc
  obtain ⟨ha', hr'⟩ := hi hr
  have hd : Approved p.envelope mail (rcpts ++ [(code, response)]) := by
    refine ⟨hm.mp hr, ?_, ?_⟩
    · simp [hh, hl]
    · rwa [ha'] at ha
  have hc : (p.heard (code, response)).replies = mail :: (rcpts ++ [(code, response)]) := by simp [hp]
  have hf : Wrote (p.heard (code, response)) p.envelope.to_ [] := by
    have hk : (if c.capabilities.pipelining then p.envelope.to_ else p.envelope.to_.take (c.recipientIndex + 1))
        = p.envelope.to_ := by
      rw [hl, take_length, ite_self]
    rw [hk] at hw
    exact hw.heard
  have hg : (((c.settleRecipient code response recipient).say .data).setState .Data).log = c.log ++
    [Entry.said .data] := by
    simp [say, setState]
  have hb : Booked (((c.settleRecipient code response recipient).say .data).setState .Data) := by
    constructor
    · rw [hg, begun_concat, settled_concat]
      simpa [say, setState, Entry.begins, Entry.settles] using h.booked.ledger
    · rw [hg]
      exact h.booked.lawful.concat ⟨_, mail, _, h.advanced, hf, hc, hd⟩
  have hn : progress (((c.settleRecipient code response recipient).say .data).setState .Data).log
      = some ((p.heard (code, response)).said .data) := by
    rw [hg, progress_concat, h.advanced]
    rfl
  apply Accounted.under hb rfl hn
  refine ⟨?_, ?_, h.current.nonempty, ?_⟩
  · simpa [say, setState] using h.current.token
  · simpa [say, setState] using h.current.envelope
  · exact .data rfl hc hd ha' hr' (hf.said .data)

lemma recipientPipelined (hs : c.state = .Recipients) (he : c.envelope = some envelope)
    (hrc : envelope.to_[c.recipientIndex]? = some recipient) (hm : c.recipientIndex + 1 ≠ envelope.to_.length)
    (hp : c.capabilities.pipelining = true) : Accounted (c.settleRecipient code response recipient) := by
  obtain ⟨rfl, mail, rcpts, hr, hl, ha, hi, hw⟩ := h.recipientAnswered hs he hrc
  have hh : (p.heard (code, response)).replies = mail :: (rcpts ++ [(code, response)]) := by simp [hr]
  have hb : Booked (c.settleRecipient code response recipient) := h.booked.same (by simp) (by simp)
  apply Accounted.under hb
  · simp [hs, State.sending]
  · simpa using h.advanced
  refine ⟨by simpa using h.current.token, by simpa using h.current.envelope, h.current.nonempty, ?_⟩
  apply Stage.recipients (by simpa using hs) hh
  · simp [hl]
  · have ht := (List.getElem?_eq_some_iff.mp hrc).1
    simp only [settleRecipient_index, Progress.heard_envelope]
    omega
  · simpa using ha
  · exact fun hn => (hi (by simpa using hn)).1
  · exact fun hn => (hi (by simpa using hn)).2
  · simp only [settleRecipient_capabilities, hp, if_true, Progress.heard_envelope] at hw ⊢
    exact hw.heard

lemma recipientNext (hs : c.state = .Recipients) (he : c.envelope = some envelope)
    (hrc : envelope.to_[c.recipientIndex]? = some recipient) (hm : c.recipientIndex + 1 ≠ envelope.to_.length)
    (hp : c.capabilities.pipelining = false) (hn : envelope.to_[c.recipientIndex + 1]? = some next) :
    Accounted ((c.settleRecipient code response recipient).say (.rcpt next)) := by
  obtain ⟨rfl, mail, rcpts, hr, hl, ha, hi, hw⟩ := h.recipientAnswered hs he hrc
  have hh : ((p.heard (code, response)).said (.rcpt next)).replies = mail :: (rcpts ++ [(code, response)]) := by
    simp [hr]
  have hg : ((c.settleRecipient code response recipient).say (.rcpt next)).log = c.log ++
    [Entry.said (.rcpt next)] := by
    simp [say]
  have hb : Booked ((c.settleRecipient code response recipient).say (.rcpt next)) :=
    h.booked.calm (by simp [say]) hg (by simp [Entry.calm])
  apply Accounted.under (p := (p.heard (code, response)).said (.rcpt next)) hb
  · simp [say, hs, State.sending]
  · rw [hg, progress_concat, h.advanced]
    rfl
  refine ⟨by simpa [say] using h.current.token, by simpa [say] using h.current.envelope, h.current.nonempty, ?_⟩
  apply Stage.recipients (by simpa [say] using hs) hh
  · simp [say, hl]
  · have ht := (List.getElem?_eq_some_iff.mp hrc).1
    simp only [say, settleRecipient_index, Progress.heard_envelope, Progress.said_envelope]
    omega
  · simpa [say] using ha
  · exact fun ho => (hi (by simpa [say] using ho)).1
  · exact fun ho => (hi (by simpa [say] using ho)).2
  · have hc : p.envelope.to_.take (c.recipientIndex + 1 + 1) =
      p.envelope.to_.take (c.recipientIndex + 1) ++ [next] := by
      rw [take_add_one, hn]
      rfl
    simp only [say, settleRecipient_capabilities, settleRecipient_index, hp, Bool.false_eq_true, if_false,
      Progress.heard_envelope, Progress.said_envelope, hc] at hw ⊢
    exact hw.heard.rcpt next

end

lemma bodyOpened (h : Heard c 354 response p) (hs : c.state = .Data) (token : ℕ) : Accounted (c.openStream token) := by
  obtain ⟨hs', _⟩ | ⟨hs', _⟩ | ⟨hs', hr, ha, hd, he, hw⟩ | ⟨hs', _⟩ := h.current.stage
  case data mail rcpts =>
    have hl : (c.openStream token).log = c.log ++ [Entry.told (.BodyReady token)] := rfl
    have hb : Booked (c.openStream token) := h.booked.calm rfl hl (by simp [Entry.calm])
    have hp : progress (c.openStream token).log = some (p.heard (354, response)) := by
      rw [hl, progress_concat, h.advanced]
      rfl
    apply Accounted.under hb rfl hp
    refine ⟨h.current.token, h.current.envelope, h.current.nonempty, ?_⟩
    have hh : (p.heard (354, response)).replies = mail :: (rcpts ++ [(354, response)]) := by simp [hr]
    have hc : Wrote (p.heard (354, response)) p.envelope.to_ (.data :: map .content []) := hw.heard
    exact .body rfl hh ha hd he hc
  all_goals exact absurd (hs.symm.trans hs') (by decide)

lemma bodyWritten (h : Heard c 354 response p) (hs : c.state = .Data) (body : Bytes) :
    Accounted ((c.setState .Body).say (.content body)) := by
  obtain ⟨hs', _⟩ | ⟨hs', _⟩ | ⟨hs', hr, ha, hd, he, hw⟩ | ⟨hs', _⟩ := h.current.stage
  case data mail rcpts =>
    have hl : ((c.setState .Body).say (.content body)).log = c.log ++ [Entry.said (.content body)] := rfl
    have hb : Booked ((c.setState .Body).say (.content body)) := h.booked.calm rfl hl (by simp [Entry.calm])
    have hp : progress ((c.setState .Body).say (.content body)).log
        = some ((p.heard (354, response)).said (.content body)) := by
      rw [hl, progress_concat, h.advanced]
      rfl
    apply Accounted.under hb rfl hp
    refine ⟨h.current.token, h.current.envelope, h.current.nonempty, ?_⟩
    have hh : ((p.heard (354, response)).said (.content body)).replies = mail :: (rcpts ++ [(354, response)]) := by
      simp [hr]
    have hc : Wrote ((p.heard (354, response)).said (.content body)) p.envelope.to_
        (.data :: map .content [body]) := hw.heard.said (.content body)
    exact .body rfl hh ha hd he hc
  all_goals exact absurd (hs.symm.trans hs') (by decide)

lemma completed (h : Heard c 250 response p) (hs : c.state = .Body) {token : ℕ} (hn : c.token = some token)
    (he : c.envelope = some envelope) :
    Accounted (c.settle token ⟨response, 250, c.accepted, c.rejected, envelope, c.messageId⟩) := by
  obtain rfl : p.token = token := Option.some.inj (h.current.token.symm.trans hn)
  obtain rfl : p.envelope = envelope := Option.some.inj (h.current.envelope.symm.trans he)
  set info : SendInfo := ⟨response, 250, c.accepted, c.rejected, p.envelope, c.messageId⟩ with hi
  obtain ⟨hs', _⟩ | ⟨hs', _⟩ | ⟨hs', _⟩ | ⟨hs', hr, ha, hd, hj, hw⟩ := h.current.stage
  case body mail rcpts text contents =>
    have hb : Delivered (p.heard (250, response)) p.token info := by
      refine ⟨rfl, rfl, ⟨contents, hw.heard⟩, mail, rcpts, text, ?_, ha, hd, hj⟩
      simp [hr, hi]
    have hl : (c.settle p.token info).log = c.log ++ [Entry.told (.Sent p.token info)] := rfl
    refine ⟨⟨?_, ?_⟩, fun _ => ⟨rfl, ?_⟩, nofun⟩
    · have hc := h.booked.ledger
      rw [hn] at hc
      rw [hl, begun_concat, settled_concat, hc]
      simp [settle, Entry.begins, Entry.settles]
    · rw [hl]
      exact h.booked.lawful.concat ⟨_, h.advanced, hb⟩
    · rw [hl, progress_concat]
      rfl
  all_goals exact absurd (hs.symm.trans hs') (by decide)

end Heard

lemma firstCommands_calm (envelope : Envelope) (size : Option ℕ) (eightBit pipelining : Bool) :
    ∀ e ∈ (firstCommands envelope size eightBit pipelining).map Entry.said, e.calm = true := by
  intro e he
  obtain ⟨_, hc, rfl⟩ := mem_map.mp he
  simp only [firstCommands] at hc
  rcases mem_cons.mp hc with rfl | hr
  · rfl
  · cases pipelining with
    | false => simp at hr
    | true =>
      obtain ⟨_, _, rfl⟩ := mem_map.mp hr
      rfl

lemma progress_said (cmds : List Command) (h : progress log = some p) :
    progress (log ++ cmds.map .said) = some { p with commands := p.commands ++ cmds } := by
  induction cmds generalizing log p with
  | nil => simp [h]
  | cons cmd cmds ih =>
    have ha : progress (log ++ [Entry.said cmd]) = some (p.said cmd) := by
      rw [progress_concat, h]
      rfl
    rw [map_cons, append_cons, ih ha]
    simp [Progress.said]

lemma firstCommands_wrote {envelope : Envelope} {token : ℕ} {size : Option ℕ} (eightBit pipelining : Bool) :
    Wrote ⟨token, envelope, firstCommands envelope size eightBit pipelining, []⟩
      (if pipelining then envelope.to_ else []) [] := by
  refine ⟨size, eightBit, ?_⟩
  cases pipelining <;> simp [firstCommands]

namespace Accounted

lemma began (h : Accounted c) (hs : c.state = .Ready) {token : ℕ} {envelope : Envelope} {messageId : Bytes}
    (ho : envelope.to_ ≠ []) :
    Accounted (((c.startMessage token envelope messageId).sayAll
      (firstCommands envelope size eightBit c.capabilities.pipelining)).setState .Mail) := by
  obtain ⟨hn, _⟩ := h.idle (by rw [hs]; rfl)
  have ht : Booked (c.startMessage token envelope messageId) := by
    constructor
    · have hl := h.ledger
      rw [hn] at hl
      simp [startMessage, begun_concat, settled_concat, hl, Entry.begins, Entry.settles]
    · exact h.lawful.concat trivial
  have hp : progress (c.startMessage token envelope messageId).log = some ⟨token, envelope, [], []⟩ := by
    simp only [startMessage, progress_concat]
    rfl
  rw [sayAll_eq]
  have ha := progress_said (firstCommands envelope size eightBit c.capabilities.pipelining) hp
  refine .under (ht.calm rfl rfl (firstCommands_calm envelope size eightBit _)) rfl ha ?_
  refine ⟨rfl, rfl, ho, ?_⟩
  exact .mail rfl rfl rfl rfl rfl rfl (firstCommands_wrote eightBit _)

lemma wrote (h : Accounted c) (hs : c.state = .Body) {encoder : DataEncoder} {bodyOpen : Bool} :
    Accounted ({ c.say (.content bytes) with encoder, bodyOpen } : Connection L) := by
  obtain ⟨p, hp, hc⟩ := h.busy (by rw [hs]; rfl)
  obtain ⟨hs', _⟩ | ⟨hs', _⟩ | ⟨hs', _⟩ | ⟨hs', hr, ha, hd, he, hw⟩ := hc.stage
  case body mail rcpts text contents =>
    have hl : (c.say (.content bytes)).log = c.log ++ [Entry.said (.content bytes)] := rfl
    have hb : progress (c.say (.content bytes)).log = some (p.said (.content bytes)) := by
      rw [hl, progress_concat, hp]
      rfl
    have ht : ({ c.say (.content bytes) with encoder, bodyOpen } : Connection L).state.sending = true := by
      simp [say, hs, State.sending]
    refine .under (h.toBooked.calm rfl hl (by simp [Entry.calm])) ht hb ?_
    refine ⟨hc.token, hc.envelope, hc.nonempty, ?_⟩
    have ho : Wrote (p.said (.content bytes)) p.envelope.to_ (.data :: map .content (contents ++ [bytes])) := by
      simpa using hw.said (.content bytes)
    exact .body hs hr ha hd he ho
  all_goals exact absurd (hs.symm.trans hs') (by decide)

end Accounted

end Turnloop.Smtp
