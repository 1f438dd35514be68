import Turnloop.Smtp.Replies

/-! What the calls of a host do, as a chain of small moves. -/

namespace Turnloop.Smtp

open Lib Program Connection
open List hiding count next

variable {L : Library} {c c' c₀ : Connection L} {code now : ℕ} {call : Call}
variable {ok : Unit → Connection L → Prop} {envelope : Envelope} {messageId : Bytes} {token end_ : ℕ}

namespace Connection

def aside (tx : Bytes) (txPos : ℕ) (events : List Event) (deadline : Option ℕ) (body : Bytes)
    (streaming : Option StreamBody)
    (c : Connection L) : Connection L :=
  { c with tx, txPos, events, deadline, body, streaming }

def sayAll (cmds : List Command) (c : Connection L) : Connection L := cmds.foldl (fun c cmd => c.say cmd) c

lemma sayAll_eq (c : Connection L) :
    c.sayAll cmds = { c with tx := c.tx ++ cmds.flatMap Command.bytes, log := c.log ++ cmds.map .said } := by
  induction cmds generalizing c with
  | nil => simp [sayAll]
  | cons cmd cmds ih =>
    have hr : c.sayAll (cmd :: cmds) = (c.say cmd).sayAll cmds := rfl
    rw [hr, ih]
    simp [say]

lemma secured_ehlo_log (c : Connection L) :
    c.secured.ehlo.log = c.log ++ [Entry.upgraded, .said (.ehlo c.config.name)] := by
  simp [ehlo, say, setState, secured, note]

def firstCommands (envelope : Envelope) (size : Option ℕ) (eightBit pipelining : Bool) : List Command :=
  .mail envelope.from_ size eightBit (utf8 envelope) :: if pipelining then envelope.to_.map .rcpt else []

def Overrun (c : Connection L) : Prop := ∃ bytes, Entry.piece .Closed bytes ∈ c.log

/-- What lets a closed connection fail once more. -/
def Late (c : Connection L) : Prop :=
  c.token.isSome ∨ c.deadline.isSome ∨ c.Overrun ∨ Entry.excess .Closed ∈ c.log

end Connection

inductive Moved : Connection L → Connection L → Prop
  | aside {c : Connection L} {tx : Bytes} {txPos : ℕ} {events : List Event} {deadline : Option ℕ} {body : Bytes}
      {streaming : Option StreamBody} (houtput : tx.drop txPos <:+ c.output) (hevents : events <:+ c.events)
      (hdeadline : c.state = .Closed → deadline = c.deadline) (hpos : c.txPos ≤ c.tx.length → txPos ≤ tx.length) :
      Moved c (c.aside tx txPos events deadline body streaming)
  | connected {c : Connection L} (hs : c.state = .Disconnected) (htls : c.config.tls ≠ .Implicit) :
      Moved c (c.setState .Greeting)
  | wrapped {c : Connection L} (hs : c.state = .Disconnected) (htls : c.config.tls = .Implicit) :
      Moved c (({ c with state := .Tls, implicitPending := true } : Connection L).tell .UpgradeTls)
  | unwrapped {c : Connection L} (hs : c.state = .Tls) (hpending : c.implicitPending = true) :
      Moved c ({ c.secured with implicitPending := false, state := .Greeting } : Connection L)
  | upgraded {c : Connection L} (hs : c.state = .Tls) (hpending : c.implicitPending = false) :
      Moved c c.secured.ehlo
  | piece {c : Connection L} {bytes : Bytes} (hs : c.state ≠ .Disconnected) : Moved c (c.takePiece bytes)
  | line {c : Connection L} {end_ code : ℕ} (hend : end_ < c.rx.length)
      (hlong : 4 ≤ end_) (hs : c.state ≠ .Disconnected) :
      Moved c (c.takeLine end_ code)
  | answered {c c' : Connection L} {code : ℕ} (hconnected : c.state ≠ .Disconnected)
      (hclosed : c.state = .Closed → c.Overrun)
      (hreply : Replied (c.takeResponse code) code c.response c') (hrx : c'.state = .Tls → c'.rx = []) : Moved c c'
  | intruded {c c' : Connection L} {code : ℕ} {e : Error} (hconnected : c.state ≠ .Disconnected)
      (hclosed : c.state = .Closed → c.Overrun) (hreply : Replied (c.takeResponse code) code c.response c')
        (hs : c'.state = .Tls) :
      Moved c (c'.fail e).closeTransport
  | excess {c : Connection L} : Moved c (c.note (.excess c.state))
  | aborted {c : Connection L} {e : Error} (hclosed : c.state = .Closed → c.Late) : Moved c (c.fail e).closeTransport
  | closed {c : Connection L} (htoken : c.token = none) : Moved c c.closeTransport
  | wrote {c : Connection L} {bytes : Bytes} {encoder : DataEncoder} {bodyOpen : Bool} (hs : c.state = .Body) :
      Moved c ({ c.say (.content bytes) with encoder, bodyOpen } : Connection L)
  | reset {c : Connection L} (hs : c.state = .Ready) :
      Moved c ({ c.say .rset with state := .Reset, automaticReset := false } : Connection L)
  | quit {c : Connection L} (hs : c.state = .Ready) : Moved c ((c.say .quit).setState .Quit)

inductive Began (token : ℕ) : Connection L → Connection L → Prop
  | intro {c : Connection L} {envelope : Envelope} {messageId : Bytes} {size : Option ℕ} {eightBit : Bool}
      (hs : c.state = .Ready) (hto : envelope.to_ ≠ []) :
      Began token c (((c.startMessage token envelope messageId).sayAll
        (firstCommands envelope size eightBit c.capabilities.pipelining)).setState .Mail)

abbrev Moves (c c' : Connection L) : Prop := Relation.ReflTransGen Moved c c'

namespace Moves

lemma timed (h : Moves c c') (hs : c'.state ≠ .Closed) (deadline : Option ℕ) :
    Moves c ({ c' with deadline } : Connection L) := by
  have hm : Moved c' (c'.aside c'.tx c'.txPos c'.events deadline c'.body c'.streaming) :=
    .aside suffix_rfl suffix_rfl (fun hc => (hs hc).elim) id
  exact h.tail hm

lemma armed (h : Moves c c') (hs : c'.state ≠ .Closed) (now : ℕ) : Moves c (c'.arm now) := h.timed hs _

end Moves

def Ran (c : Connection L) : Option ℕ → Connection L → Prop
  | none, c' => Moves c c'
  | some token, c' => ∃ c₁ c₂, Moves c c₁ ∧ Began token c₁ c₂ ∧ Moves c₂ c'

def Panics (c : Connection L) : Prop := ∃ c₁ code, Moves c c₁ ∧ (c₁.takeResponse code).reply code c₁.response = none

def Halted (c : Connection L) : Stop → Connection L → Prop
  | .err _, c' => Moves c c'
  | .panic, _ => Panics c

lemma protocolError_post (h : Moves c₀ c) (hc : c.state = .Closed → c.Late) :
    Post (protocolError message) c ok (Halted c₀) := by
  apply Post.get
  apply Post.put
  apply Post.throw
  exact h.tail (.aborted hc)

lemma become_post {err : Stop → Connection L → Prop}
    (hn : next = none → err .panic c) (ho : ∀ c', next = some c' → ok () c') : Post (become next) c ok err := by
  cases next with
  | none => exact hn rfl
  | some c' => exact ho c' rfl

structure Open (c₀ c : Connection L) : Prop where
  moves : Moves c₀ c
  overrun : c.state = .Closed → c.Overrun
  connected : c.state ≠ .Disconnected

lemma answer_post (h : Open c₀ c) :
    Post (answer now code) c (fun more c' => Moves c₀ c' ∧ (more = true → Open c₀ c')) (Halted c₀) := by
  apply Post.get
  apply Post.put
  apply Post.get
  apply Post.bind
  apply become_post
  · exact fun hn => ⟨c, code, h.moves, hn⟩
  intro c' hr
  have he := reply_replied hr
  apply Post.put
  apply Post.get
  by_cases hd : c'.state = .Closed ∨ c'.state = .Greeting
  · rw [if_pos hd]
    have hl : c'.state ≠ .Tls := by
      rcases hd with hs | hs <;> simp [hs]
    have hm : Moves c₀ c' := h.moves.tail (.answered h.connected h.overrun he (fun hs => (hl hs).elim))
    apply Post.when
    · intro _
      apply Post.pure
      refine ⟨hm, fun ho => ⟨hm, fun hc => ?_, he.not_disconnected⟩⟩
      simp [hc] at ho
    · intro hp
      simp [hl] at hp
  · rw [if_neg hd]
    have hb : c'.state ≠ .Closed := fun hs => hd (.inl hs)
    apply Post.when
    · intro hp
      have hx : c'.state = .Tls → c'.rx = [] := by
        intro hs
        simpa [arm, hs] using hp
      apply Post.pure
      have hm : Moves c₀ c' := h.moves.tail (.answered h.connected h.overrun he hx)
      have ha := hm.armed hb now
      exact ⟨ha, fun _ => ⟨ha, fun hc => (hb hc).elim, he.not_disconnected⟩⟩
    · intro hp
      have hs : c'.state = .Tls := by
        rw [Bool.and_eq_true, beq_iff_eq] at hp
        exact hp.1
      apply Post.bind
      apply Post.get
      apply Post.put
      apply Post.throw
      have hf : ∀ e, (((c'.arm now).fail e).closeTransport) = (c'.fail e).closeTransport := by
        intro e
        simp [closeTransport, fail, Connection.tell, arm, hs]
      rw [hf]
      exact h.moves.tail (.intruded h.connected h.overrun he hs)

lemma findIdx_lt {rx : Bytes} (h : rx.findIdx? (· == 10) = some end_) : end_ < rx.length :=
  (findIdx?_eq_some_iff_getElem.mp h).1

lemma Open.took (h : Open c₀ c) (he : end_ < c.rx.length) (hl : 4 ≤ end_) (code : ℕ) :
    Open c₀ (c.takeLine end_ code) where
  moves := h.moves.tail (.line he hl h.connected)
  overrun hclosed := by
    obtain ⟨bytes, hb⟩ := h.overrun hclosed
    exact ⟨bytes, mem_append_left _ hb⟩
  connected := h.connected

lemma Open.protocolError (h : Open c₀ c) : Post (protocolError message) c ok (Halted c₀) :=
  protocolError_post h.moves fun hc => .inr (.inr (.inl (h.overrun hc)))

lemma receiveLine_post (h : Open c₀ c) (he : end_ < c.rx.length) :
    Post (receiveLine now end_) c (fun more c' => Moves c₀ c' ∧ (more = true → Open c₀ c')) (Halted c₀) := by
  apply Post.get
  apply Post.when
  · intro hg
    have hl : 4 ≤ end_ := by
      simp only [malformed, Bool.or_eq_false_iff, decide_eq_false_iff_not] at hg
      omega
    apply Post.when
    · intro _
      have hk := h.took he hl (lineCode c.rx)
      apply Post.put
      apply Post.get
      apply Post.when
      · intro _
        by_cases hc : (c.rx[3]? == some 32) = true
        · rw [if_pos hc]
          exact answer_post hk
        · rw [if_neg hc]
          exact .pure ⟨hk.moves, fun _ => hk⟩
      · intro _
        exact .bind hk.protocolError
    · intro _
      exact .bind h.protocolError
  · intro _
    exact .bind h.protocolError

lemma receiveLines_post (h : Open c₀ c) : Post (receiveLines now n) c (fun _ c' => Moves c₀ c') (Halted c₀) := by
  induction n generalizing c with
  | zero => exact .pure h.moves
  | succ n ih =>
    apply Post.get
    cases he : c.rx.findIdx? (· == 10) with
    | none => exact .pure h.moves
    | some =>
      apply Post.bind
      apply (receiveLine_post h (findIdx_lt he)).mono
      · intro _ c' hl
        apply Post.when_last
        · exact fun _ => hl.1
        · exact fun hm => ih (hl.2 hm)
      · exact fun _ _ hh => hh

lemma Moved.not_disconnected (h : Moved c c') (hs : c.state ≠ .Disconnected) : c'.state ≠ .Disconnected := by
  cases h with
  | answered hc hd hr => exact hr.not_disconnected
  | _ => simp_all [Connection.aside, say, note, setState, ehlo, takePiece, takeLine]

lemma Moves.not_disconnected (h : Moves c c') (hs : c.state ≠ .Disconnected) : c'.state ≠ .Disconnected := by
  induction h with
  | refl => exact hs
  | tail _ hm ih => exact hm.not_disconnected ih

lemma receiveChunk_post (h : Moves c₀ c) (hs : c.state ≠ .Disconnected) :
    Post (receiveChunk now chunk) c (fun _ c' => Moves c₀ c' ∧ c'.state ≠ .Disconnected) (Halted c₀) := by
  have ho : Open c₀ (c.takePiece chunk) := by
    refine ⟨h.tail (.piece hs), fun hc => ⟨chunk, ?_⟩, hs⟩
    have he : c.state = .Closed := hc
    simp [takePiece, he]
  have ho' : Open (c.takePiece chunk) (c.takePiece chunk) := ⟨.refl, ho.overrun, ho.connected⟩
  apply Post.put
  apply Post.get
  apply Post.bind
  apply (receiveLines_post ho').mono
  · intro _ c' hl
    have hm : Moves c₀ c' := ho.moves.trans hl
    apply Post.get
    apply Post.when_last
    · exact fun _ => ⟨hm, hl.not_disconnected hs⟩
    · intro _
      apply Post.put
      apply protocolError_post (hm.tail .excess)
      intro hc
      have he : c'.state = .Closed := hc
      exact .inr (.inr (.inr (by simp [note, he])))
  · intro stop c' hh
    cases stop with
    | err => exact ho.moves.trans hh
    | panic =>
      obtain ⟨c₁, code, hm, hn⟩ := hh
      exact ⟨c₁, code, ho.moves.trans hm, hn⟩

lemma receive_post : Post (receive bytes now) c (fun _ c' => Moves c c') (Halted c) := by
  apply Post.get
  apply Post.refuse
  · exact fun _ => .refl
  intro hs
  simp only [Bool.or_eq_false_iff, beq_eq_false_iff_ne, ne_eq] at hs
  obtain ⟨⟨hd, _⟩, hc⟩ := hs
  have hh : ∀ c', Moves c c' → Post ((chunks 4096 bytes).forM (receiveChunk now)) c'
      (fun _ c' => Moves c c') (Halted c) := by
    intro c' hm
    have hl : Post ((chunks 4096 bytes).forM (receiveChunk now)) c'
        (fun _ c' => Moves c c' ∧ c'.state ≠ .Disconnected) (Halted c) := by
      apply Post.forM
      · exact fun chunk _ c₁ hi => receiveChunk_post hi.1 hi.2
      · exact ⟨hm, hm.not_disconnected hd⟩
    exact hl.mono (fun _ _ hi => hi.1) (fun _ _ ha => ha)
  apply Post.when
  · exact fun _ => hh c .refl
  · intro _
    apply Post.put
    exact hh _ (.armed .refl hc now)

lemma connected_post : Post (connected now) c (fun _ c' => Moves c c') (Halted c) := by
  apply Post.get
  apply Post.refuse
  · exact fun _ => .refl
  intro he
  have hs : c.state = .Disconnected := by simpa using he
  apply Post.put
  have hr : Moves c c := .refl
  have hi := hr.timed (by simp [hs]) (L.checkedAdd now c.config.greetingTimeout)
  split_ifs with hl
  · exact .modify (hi.tail (.wrapped hs hl))
  · exact .modify (hi.tail (.connected hs hl))

lemma tlsEstablished_post : Post (tlsEstablished now) c (fun _ c' => Moves c c') (Halted c) := by
  apply Post.get
  apply Post.refuse
  · exact fun _ => .refl
  intro he
  have hs : c.state = .Tls := by simpa using he
  apply Post.put
  split_ifs with hp
  · apply Post.modify
    have hm : Moves c ({ c.secured with implicitPending := false, state := .Greeting } : Connection L) :=
      .single (.unwrapped hs hp)
    exact hm.timed (by simp) _
  · apply Post.modify
    have hm : Moves c c.secured.ehlo := .single (.upgraded hs (Bool.eq_false_iff.mpr hp))
    exact hm.armed (by simp [ehlo, say, setState]) now

lemma checkSend_post : Post (checkSend envelope eightBit) c (fun _ c' => c' = c ∧ c.state = .Ready ∧
    envelope.to_ ≠ []) (Halted c) := by
  apply Post.get
  apply Post.refuse
  · exact fun _ => .refl
  intro hr
  apply Post.refuse
  · exact fun _ => .refl
  intro hv
  simp only [Bool.or_eq_false_iff, isEmpty_eq_false_iff] at hv
  apply Post.refuse
  · exact fun _ => .refl
  intro _
  apply Post.refuse_last
  · exact fun _ => .refl
  · exact fun _ => ⟨rfl, by simpa using hr, hv.1.2⟩

lemma pipelined_run {indices : List ℕ} (hn : ∀ i ∈ indices, i < envelope.to_.length) (he : c.envelope = some envelope) :
    (indices.forM fun i => (do let c ← get; become (c.rcpt i) : Action L Unit)) c
      = (.ok (), c.sayAll (indices.filterMap fun i => envelope.to_[i]?.map .rcpt)) := by
  induction indices generalizing c with
  | nil => rfl
  | cons i indices ih =>
    have hi : i < envelope.to_.length := hn i mem_cons_self
    have hf : (do let c ← get; become (c.rcpt i) : Action L Unit) c = (.ok (), c.say (.rcpt envelope.to_[i])) := by
      have hr : c.rcpt i = some (c.say (.rcpt envelope.to_[i])) := by simp [rcpt, he, hi]
      rw [bind_apply]
      change become (c.rcpt i) c = _
      rw [hr]
      rfl
    have hb := ih (c := c.say (.rcpt envelope.to_[i])) (fun j hj => hn j (mem_cons_of_mem i hj)) he
    rw [List.forM, bind_apply, hf]
    simp only [hb, filterMap_cons, getElem?_eq_getElem hi]
    rfl

lemma recipients_indexed (recipients : List Bytes) :
    ((List.range recipients.length).filterMap fun i => recipients[i]?.map Command.rcpt) = recipients.map .rcpt := by
  induction recipients with
  | nil => rfl
  | cons recipient recipients ih =>
    rw [length_cons, range_succ_eq_map, filterMap_cons]
    simp only [getElem?_cons_zero, Option.map_some, filterMap_map, Function.comp_def, getElem?_cons_succ, ih, map_cons]

lemma begin_post (h : Moves c₀ c) (hs : c.state = .Ready) (ho : envelope.to_ ≠ []) :
    Post (begin_ token envelope messageId size eightBit now) c (fun _ c' => Ran c₀ (some token) c') (Halted c₀) := by
  apply Post.get
  apply Post.refuse
  · exact fun _ => h
  intro _
  apply Post.put
  apply Post.put
  have hf : ∀ size, Post (do modify (setState .Mail); modify (arm now))
      ((c.startMessage token envelope messageId).sayAll
        (firstCommands envelope size eightBit c.capabilities.pipelining))
      (fun _ c' => Ran c₀ (some token) c') (Halted c₀) := by
    intro size
    apply Post.put
    apply Post.modify
    have hb : Began token c (((c.startMessage token envelope messageId).sayAll
        (firstCommands envelope size eightBit c.capabilities.pipelining)).setState .Mail) := .intro hs ho
    exact ⟨c, _, h, hb, .armed .refl (by simp [setState]) now⟩
  have hc := hf (if c.capabilities.sizeSupported then size else none)
  apply Post.when
  · intro hp
    rw [firstCommands, hp] at hc
    exact hc
  · intro hp
    rw [firstCommands, hp, if_pos rfl, ← recipients_indexed] at hc
    simp only [Post]
    rw [bind_apply, pipelined_run (fun i hi => mem_range.mp hi) rfl]
    exact hc

lemma Ran.streaming (h : Ran c (some token) c') (streaming : Option StreamBody) :
    Ran c (some token) ({ c' with streaming } : Connection L) := by
  obtain ⟨c₁, c₂, hb, hg, ha⟩ := h
  have hs : Moved c' (c'.aside c'.tx c'.txPos c'.events c'.deadline c'.body streaming) :=
    .aside suffix_rfl suffix_rfl (fun _ => rfl) id
  exact ⟨c₁, c₂, hb, hg, ha.tail hs⟩

lemma send_post : Post (send token envelope messageId content now) c (fun _ c' => Ran c (some token) c')
    (Halted c) := by
  apply Post.bind
  apply checkSend_post.mono
  · rintro _ _ ⟨he, hs, ho⟩
    rw [he]
    apply Post.put
    apply Post.bind
    have hm : Moved c (c.aside c.tx c.txPos c.events c.deadline (encodeData content).1 c.streaming) :=
      .aside suffix_rfl suffix_rfl (fun _ => rfl) id
    apply (begin_post (.single hm) hs ho).mono
    · intro _ c' hb
      exact .modify (hb.streaming none)
    · exact fun _ _ hh => hh
  · exact fun _ _ hh => hh

lemma startSend_post {body : StreamBody} :
    Post (startSend token envelope messageId body now) c (fun _ c' => Ran c (some token) c') (Halted c) := by
  apply Post.bind
  apply checkSend_post.mono
  · rintro _ _ ⟨he, hs, ho⟩
    rw [he]
    apply Post.bind
    apply (begin_post .refl hs ho).mono
    · intro _ c' hb
      exact .modify (hb.streaming (some body))
    · exact fun _ _ hh => hh
  · exact fun _ _ hh => hh

lemma checkBody_post : Post (checkBody : Action L Unit) c (fun _ c' => c' = c ∧ c.state = .Body) (Halted c) := by
  apply Post.get
  apply Post.refuse_last
  · exact fun _ => .refl
  · intro hb
    simp only [Bool.not_eq_false', Bool.and_eq_true, beq_iff_eq] at hb
    exact ⟨rfl, hb.2⟩

lemma sendChunk_post : Post (sendChunk chunk now) c (fun _ c' => Moves c c') (Halted c) := by
  apply Post.bind
  apply checkBody_post.mono
  · rintro _ _ ⟨he, hs⟩
    rw [he]
    apply Post.get
    apply Post.when
    · intro _
      apply Post.put
      apply Post.modify
      exact .armed (.single (.wrote hs)) (by simp [say, hs]) now
    · intro _
      apply Post.bind
      apply Post.put
      apply Post.throw
      exact .single (.aborted (by simp [hs]))
  · exact fun _ _ hh => hh

lemma finishBody_post : Post (finishBody now) c (fun _ c' => Moves c c') (Halted c) := by
  apply Post.bind
  apply checkBody_post.mono
  · rintro _ _ ⟨he, hs⟩
    rw [he]
    apply Post.put
    apply Post.modify
    exact .armed (.single (.wrote hs)) (by simp [say, hs]) now
  · exact fun _ _ hh => hh

lemma reset_post : Post (reset now) c (fun _ c' => Moves c c') (Halted c) := by
  apply Post.get
  apply Post.refuse
  · exact fun _ => .refl
  intro hr
  apply Post.put
  apply Post.modify
  exact .armed (.single (.reset (by simpa using hr))) (by simp) now

lemma quit_post : Post (quit now) c (fun _ c' => Moves c c') (Halted c) := by
  apply Post.get
  apply Post.refuse
  · exact fun _ => .refl
  intro hr
  apply Post.put
  apply Post.modify
  exact .armed (.single (.quit (by simpa using hr))) (by simp [setState]) now

lemma handleTimeout_post : Post (handleTimeout now) c (fun _ c' => Moves c c') (Halted c) := by
  apply Post.get
  apply Post.when_last
  · exact fun _ => .refl
  · intro hd
    apply Post.modify
    refine .single (.aborted fun _ => .inr (.inl ?_))
    rw [Option.any_eq_true_iff_get] at hd
    exact hd.1

lemma transportLost_post : Post (transportLost : Action L Unit) c (fun _ c' => Moves c c') (Halted c) := by
  apply Post.get
  apply Post.when_last
  · exact fun _ => .refl
  · intro ho
    apply Post.modify
    exact .single (.aborted fun hc => by simp [hc] at ho)

lemma close_post : Post (close : Action L Unit) c (fun _ c' => Moves c c') (Halted c) := by
  apply Post.get
  apply Post.when
  · intro hn
    apply Post.modify
    exact .single (.closed (by simpa using hn))
  · intro ho
    apply Post.put
    apply Post.modify
    exact .single (.aborted fun _ => .inl ho)

lemma pollEvent_post : Post (Call.run .pollEvent : Action L Unit) c (fun _ c' => Moves c c') (Halted c) := by
  apply Post.bind
  apply Post.get
  apply Post.put
  apply Post.pure
  apply Post.pure
  have hm : Moved c (c.aside c.tx c.txPos c.events.tail c.deadline c.body c.streaming) :=
    .aside suffix_rfl (tail_suffix _) (fun _ => rfl) id
  exact .single hm

lemma consumeOutput_post : Post (consumeOutput count) c (fun _ c' => Moves c c')
    (fun stop c' => stop = .panic ∧ c' = c ∧ c.output.length < count) := by
  apply Post.get
  apply Post.refuse
  · intro ho
    exact ⟨rfl, rfl, by simpa using ho⟩
  intro hc
  apply Post.modify
  split_ifs
  · have hm : Moved c (c.aside [] 0 c.events c.deadline c.body c.streaming) :=
      .aside nil_suffix suffix_rfl (fun _ => rfl) (fun _ => Nat.zero_le _)
    exact .single hm
  · have hm : Moved c (c.aside c.tx (c.txPos + count) c.events c.deadline c.body c.streaming) := by
      refine .aside ?_ suffix_rfl (fun _ => rfl) (fun hp => ?_)
      · rw [output, ← drop_drop]
        exact drop_suffix _ _
      · simp only [output, length_drop, gt_iff_lt, decide_eq_false_iff_not, not_lt] at hc
        omega
    exact .single hm

def Call.message : Call → Option ℕ
  | .send token .. => some token
  | .startSend token .. => some token
  | _ => none

lemma Call.run_post (call : Call) :
    Post call.run c (fun _ c' => Ran c call.message c') (fun stop c' => Halted c stop c' ∨
    stop = .panic ∧ c' = c ∧ ∃ count, call = .consumeOutput count ∧ c.output.length < count) := by
  cases call with
  | connected => exact connected_post.mono (fun _ _ h => h) (fun _ _ h => .inl h)
  | tlsEstablished => exact tlsEstablished_post.mono (fun _ _ h => h) (fun _ _ h => .inl h)
  | receive bytes => exact receive_post.mono (fun _ _ h => h) (fun _ _ h => .inl h)
  | send => exact send_post.mono (fun _ _ h => h) (fun _ _ h => .inl h)
  | startSend => exact startSend_post.mono (fun _ _ h => h) (fun _ _ h => .inl h)
  | sendChunk => exact sendChunk_post.mono (fun _ _ h => h) (fun _ _ h => .inl h)
  | finishBody => exact finishBody_post.mono (fun _ _ h => h) (fun _ _ h => .inl h)
  | reset => exact reset_post.mono (fun _ _ h => h) (fun _ _ h => .inl h)
  | quit => exact quit_post.mono (fun _ _ h => h) (fun _ _ h => .inl h)
  | handleTimeout => exact handleTimeout_post.mono (fun _ _ h => h) (fun _ _ h => .inl h)
  | transportLost => exact transportLost_post.mono (fun _ _ h => h) (fun _ _ h => .inl h)
  | close => exact close_post.mono (fun _ _ h => h) (fun _ _ h => .inl h)
  | pollEvent => exact pollEvent_post.mono (fun _ _ h => h) (fun _ _ h => .inl h)
  | consumeOutput count =>
    apply consumeOutput_post.mono (fun _ _ h => h)
    rintro stop c' ⟨rfl, he, hl⟩
    exact .inr ⟨rfl, he, count, rfl, hl⟩

end Turnloop.Smtp
