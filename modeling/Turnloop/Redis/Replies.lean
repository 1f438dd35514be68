import Turnloop.Redis.Connection

/-! What the connection owes: every command it accepts waits in a queue until its one reply. -/

namespace Turnloop.Redis

open Lib Lib.Program
open List hiding count
open Multiset hiding count

variable {D : Doubles} {c c' c'' : Connection D}

def Event.replied {F64 : Type} : Event F64 → Option ℕ
  | .reply token _ => some token
  | _ => none

def tokens (ps : List Pending) : Multiset ℕ := ps.filterMap Pending.token

def replies {F64 : Type} (es : List (Event F64)) : Multiset ℕ := es.filterMap Event.replied

@[simp] lemma tokens_nil : tokens [] = 0 := rfl

@[simp] lemma tokens_append (ps qs : List Pending) : tokens (ps ++ qs) = tokens ps + tokens qs := by
  rw [tokens, filterMap_append, ← coe_add]
  rfl

@[simp] lemma replies_append {F64 : Type} (es fs : List (Event F64)) :
    replies (es ++ fs) = replies es + replies fs := by
  rw [replies, filterMap_append, ← coe_add]
  rfl

namespace Connection

def owes (c : Connection D) : Multiset ℕ := tokens c.pending + tokens c.offline

def Waits (c : Connection D) : Prop := c.state = .Ready ∨ c.state = .Handshake ∧ c.handshake = .Restore

/-- Commands are pending only where answers are taken for theirs. -/
def Settled (c : Connection D) : Prop := (c.state = .Closed → c.offline = []) ∧ (c.pending = [] ∨ c.Waits)

lemma Settled.idle (h : c.Settled) (hw : ¬ c.Waits) : c.pending = [] := h.2.resolve_right hw

lemma Settled.early (hs : c.state = .Handshake) (hh : c.handshake ≠ .Restore) (h : c.Settled) : c.pending = [] :=
  h.idle (by simp [Waits, hs, hh])

/-- A step on which a command leaves the queues exactly when it is replied to. -/
structure Kept (c c' : Connection D) : Prop where
  replied : ∃ es, c'.events = c.events ++ es ∧ c.owes = c'.owes + replies es
  settled : c.Settled → c'.Settled

namespace Kept

lemma refl (c : Connection D) : Kept c c := ⟨⟨[], (append_nil _).symm, (add_zero _).symm⟩, id⟩

lemma trans (h : Kept c c') (h' : Kept c' c'') : Kept c c'' := by
  obtain ⟨es, he, ho⟩ := h.replied
  obtain ⟨fs, hf, ho'⟩ := h'.replied
  refine ⟨⟨es ++ fs, by rw [hf, he, append_assoc], ?_⟩, h'.settled ∘ h.settled⟩
  rw [ho, ho', replies_append, add_assoc, add_comm (replies fs)]

lemma of_same (es : List (Event D.F64)) (he : c'.events = c.events ++ es) (hn : replies es = 0)
    (hp : c'.pending = c.pending)
    (ho : c'.offline = c.offline) (hs : c.Settled → c'.Settled) : Kept c c' := by
  refine ⟨⟨es, he, ?_⟩, hs⟩
  rw [owes, owes, hp, ho, hn, add_zero]

lemma emit (he : e.replied = none) : Kept c (emit e c) :=
  of_same [e] rfl (by simp [replies, he]) rfl rfl id

lemma quiet (he : c'.events = c.events) (hp : c'.pending = c.pending) (ho : c'.offline = c.offline)
    (hs : c.Settled → c'.Settled) : Kept c c' :=
  of_same [] (by rw [he, append_nil]) rfl hp ho hs

lemma write (bytes : Bytes) : Kept c (write bytes c) := quiet rfl rfl rfl id

end Kept

lemma refreshSubscriber_kept : Kept c (refreshSubscriber c) := .quiet rfl rfl rfl id

lemma ready_kept : Kept c (ready c) := by
  refine ⟨⟨[.ready c.resp3], rfl, ?_⟩, fun _ => ⟨nofun, .inr (.inl rfl)⟩⟩
  simp [ready, owes, emit, refreshSubscriber, replies, Event.replied]

lemma tokens_resubscription (kind : Kind) (items : List Bytes) : tokens (items.map (resubscription kind)) = 0 := by
  rw [tokens, coe_eq_zero, filterMap_eq_nil_iff]
  intro p hp
  obtain ⟨_, -, rfl⟩ := mem_map.mp hp
  rfl

lemma stage_kept (hi : c.Settled → c.pending = []) (stage : Handshake) : Kept c { c with handshake := stage } :=
  .quiet rfl rfl rfl fun hs => ⟨hs.1, .inl (hi hs)⟩

section

variable (hst : c.state = .Handshake)
include hst

lemma resubscribe_kept (hh : c.handshake = .Restore) : Kept c (resubscribe c) := by
  unfold resubscribe
  split_ifs
  · refine ⟨⟨[], (append_nil _).symm, ?_⟩, fun hs => ⟨hs.1, .inr (.inr ⟨hst, hh⟩)⟩⟩
    simp [owes, tokens_resubscription, replies]
  · exact .quiet rfl rfl rfl id

variable (hi : c.Settled → c.pending = [])
include hi

lemma restore_kept : Kept c (restore c) := by
  have hr := (stage_kept hi .Restore).trans (resubscribe_kept hst rfl)
  unfold restore
  dsimp only
  split_ifs
  · exact hr.trans ready_kept
  · exact hr

lemma name_kept : Kept c (name c) := by
  have hf := stage_kept hi .Name
  unfold name
  dsimp only
  split
  · exact hf.trans (.write _)
  · exact hf.trans (restore_kept hst (Settled.early hst nofun))

lemma select_kept : Kept c (select c) := by
  have hf := stage_kept hi .Select
  unfold select
  dsimp only
  split_ifs
  · exact hf.trans (.write _)
  · exact hf.trans (name_kept hst (Settled.early hst nofun))

lemma auth_kept : Kept c (auth c) := by
  have hf := stage_kept hi .Auth
  unfold auth
  dsimp only
  split
  · exact hf.trans (.write _)
  · exact hf.trans (.write _)
  · exact hf.trans (select_kept hst (Settled.early hst nofun))

end

lemma beginHandshake_kept (hw : ¬ c.Waits) : Kept c (beginHandshake c) := by
  have hb : ∀ stage, Kept c { c with state := .Handshake, resp3 := false, subscriber := false, handshake := stage } :=
    fun stage =>
    .quiet rfl rfl rfl fun hs => ⟨nofun, .inl (hs.idle hw)⟩
  unfold beginHandshake
  dsimp only
  split_ifs
  · split
    · exact (hb _).trans (.write _)
    · exact (hb _).trans (.write _)
  · exact (hb .Auth).trans (auth_kept rfl (Settled.early rfl nofun))

lemma replies_owed (message : String) (ps : List Pending) :
    replies (ps.flatMap (owed message) : List (Event D.F64)) = tokens ps := by
  induction ps with
  | nil => rfl
  | cons p ps ih =>
    have hh : replies (owed message p : List (Event D.F64)) = tokens [p] := by
      unfold owed
      cases hp : p.token with
      | none => simp [replies, tokens, hp]
      | some => simp [replies, tokens, hp, Event.replied]
    rw [flatMap_cons, replies_append, hh, ih, ← tokens_append, singleton_append]

lemma close_kept : Kept c (close c) := by
  unfold close
  split_ifs with hc
  · exact .refl c
  · refine ⟨⟨(c.pending ++ c.offline).flatMap (owed "Connection is closed.") ++ [.closeTransport, .closed],
      by rw [append_assoc], ?_⟩,
      fun _ => ⟨fun _ => rfl, .inl rfl⟩⟩
    rw [replies_append, replies_owed]
    simp [owes, replies, Event.replied]

lemma complete_kept : Keeps (complete value) c (Kept c) := by
  unfold complete
  refine .get ?_
  cases hp : c.pending with
  | nil => exact .throw (.refl c)
  | cons p rest =>
    have ho : Kept c { c with pending := rest, events := c.events ++ answer p value } := by
      refine ⟨⟨answer p value, rfl, ?_⟩, fun hs => ⟨hs.1, .inr (hs.2.resolve_left (by simp [hp]))⟩⟩
      · have ha : replies (answer p value) = tokens [p] := by
          unfold answer
          cases ht : p.token with
          | none => simp [replies, tokens, ht]
          | some => simp [replies, tokens, ht, Event.replied]
        rw [ha, owes, owes, hp, ← singleton_append, tokens_append]
        abel
    refine .put (.when_last (fun _ => ?_) fun _ => .modify ?_)
    · exact ho.trans refreshSubscriber_kept
    · exact (ho.trans refreshSubscriber_kept).trans close_kept

lemma retarget_kept (kind : Kind) (channel : Option Bytes) : Kept c (retarget kind channel c) := by
  unfold retarget
  split_ifs
  · exact .quiet rfl rfl rfl id
  · exact .quiet rfl rfl rfl id

lemma acknowledged_kept : Keeps (acknowledged kind count) c (Kept c) := by
  unfold acknowledged
  refine .get ?_
  cases hp : c.pending with
  | nil => exact .throw (.refl c)
  | cons p rest =>
    dsimp only
    by_cases hk : p.kind = kind
    · rw [if_pos hk]
      have ho : ∀ acks, Kept c { c with pending := { p with acks := acks } :: rest } := by
        refine fun acks => ⟨⟨[], (List.append_nil _).symm, ?_⟩,
          fun hs => ⟨hs.1, .inr (hs.2.resolve_left (by simp [hp]))⟩⟩
        simp [owes, hp, tokens, replies, List.filterMap_cons]
      have hr : ∀ c' : Connection D, Kept c c' →
        Kept c (if c'.state = .Handshake ∧ c'.pending.isEmpty then ready c' else c') := by
        intro c' hc'
        split_ifs
        · exact hc'.trans ready_kept
        · exact hc'
      refine .put (.when (fun _ => .modify (hr _ (ho _))) fun _ => .bind ?_)
      exact complete_kept.mono (fun _ c' hc' => .modify (hr _ ((ho _).trans hc'))) fun _ c' hc' => (ho _).trans hc'
    · rw [if_neg hk]
      exact .throw (.refl c)

lemma pubsub_kept : Keeps (pubsub items) c (Kept c) := by
  unfold pubsub
  refine .get ?_
  dsimp only
  split_ifs
  · exact .lift (fun _ _ => .refl c) fun m _ => .put (.pure (.emit rfl))
  · refine .put ?_
    have ha := retarget_kept (c := c) (.of ((items.head?.bind Value.bytes).getD [])) (items[1]?.bind Value.bytes)
    split
    · exact .throw ha
    · refine .put (.bind ?_)
      have hc : ∀ b, Kept c { retarget (.of ((items.head?.bind Value.bytes).getD []))
        (items[1]?.bind Value.bytes) c with subscriber := b } :=
        fun b => ha.trans (.quiet rfl rfl rfl id)
      exact acknowledged_kept.mono (fun _ c' hc' => Post.pure ((hc _).trans hc')) fun _ c' hc' => (hc _).trans hc'
  · exact .bind (complete_kept.mono (fun _ c' hc' => .pure hc') fun _ c' hc' => hc')
  · exact .pure (.refl c)

section

variable (hst : c.state = .Handshake) (hh : c.handshake ≠ .Restore)
include hst hh

lemma advance_kept : Kept c (advance c) := by
  have hi : c.Settled → c.pending = [] := Settled.early hst hh
  unfold advance
  split
  · have hv : Kept c { c with resp3 := true } := .quiet rfl rfl rfl id
    exact hv.trans (select_kept hst hi)
  · exact select_kept hst hi
  · exact name_kept hst hi
  · exact restore_kept hst hi
  · exact .refl c

lemma handshakeError_kept {bytes : Bytes} : Kept c (handshakeError bytes c) := by
  unfold handshakeError
  split_ifs
  · exact auth_kept hst (Settled.early hst hh)
  · exact .trans (.emit rfl) close_kept

end

lemma plainFrame_kept : Keeps (plainFrame value) c (Kept c) := by
  unfold plainFrame
  refine .get ?_
  by_cases hh : c.state = .Handshake ∧ c.handshake ≠ .Restore
  · rw [if_pos hh]
    split
    · exact .modify (handshakeError_kept hh.1 hh.2)
    · exact .modify (advance_kept hh.1 hh.2)
  · rw [if_neg hh]
    split
    · refine .bind (pubsub_kept.mono (fun taken c' hc' => ?_) fun _ c' hc' => hc')
      exact .when_last (fun _ => hc') fun _ => .modify (hc'.trans (.emit rfl))
    · split_ifs
      · refine .bind (pubsub_kept.mono (fun taken c' hc' => ?_) fun _ c' hc' => hc')
        exact .when_last (fun _ => hc') fun _ => complete_kept.mono (fun _ _ h => hc'.trans h) fun _ _ h => hc'.trans h
      · exact complete_kept
    · exact complete_kept

lemma frame_kept {value : Value D.F64} : Keeps (frame value) c (Kept c) := by
  unfold frame
  split
  · exact frame_kept
  · exact plainFrame_kept
termination_by sizeOf value

lemma closing_kept (h : Keeps m c (Kept c)) : Keeps (closing m) c (Kept c) :=
  Post.tryCatch (h.mono (fun _ _ h => h) fun _ _ h => .put (.throw (h.trans close_kept)))

lemma frames_kept (consumed : ℕ) : Keeps (frames fuel consumed) c (Kept c) := by
  induction fuel generalizing c consumed with
  | zero => exact .pure (.refl c)
  | succ fuel ih =>
    unfold frames
    refine .get ?_
    dsimp only
    split
    · exact .put (.throw close_kept)
    · rename_i m len _
      have hm : Kept c (emit (.message m) c) := .emit rfl
      exact .put ((ih _).mono (fun _ _ h => hm.trans h) fun _ _ h => hm.trans h)
    · split
      · exact .put (.throw close_kept)
      · exact .pure (.refl c)
      · refine .bind ((closing_kept frame_kept).mono (fun _ c' hc' => .get ?_) fun _ _ h => h)
        split_ifs
        · exact .pure hc'
        · exact (ih _).mono (fun _ _ h => hc'.trans h) fun _ _ h => hc'.trans h

lemma receiveChunks_kept {chunks : List Bytes} : Keeps (receiveChunks chunks) c (Kept c) := by
  induction chunks generalizing c with
  | nil => exact .pure (.refl c)
  | cons chunk chunks ih =>
    unfold receiveChunks
    refine .put (.get (.bind ?_))
    have hr : ∀ bytes, Kept c { c with rx := bytes } := fun bytes => .quiet rfl rfl rfl id
    refine (frames_kept 0).mono (fun consumed c' hc' => ?_) fun _ _ h => (hr _).trans h
    cases consumed with
    | none => exact .pure ((hr _).trans hc')
    | some consumed =>
      have hd : Kept c { c' with rx := c'.rx.drop consumed } := ((hr _).trans hc').trans (.quiet rfl rfl rfl id)
      exact .put (ih.mono (fun _ _ h => hd.trans h) fun _ _ h => hd.trans h)

lemma receive_kept {bytes : Bytes} : Kept c (receive bytes c).2 := by
  refine Post.snd ?_
  unfold receive
  exact Post.get (Post.refuse (fun _ => .refl c) fun _ => receiveChunks_kept)

lemma connect_kept {now : ℕ} : Kept c (connect now c).2 := by
  refine Post.snd ?_
  unfold connect
  refine Post.get (Post.refuse (fun _ => .refl c) fun hg => Post.modify ?_)
  refine .of_same [.connect] rfl rfl rfl rfl fun hs => ⟨nofun, .inl (hs.idle ?_)⟩
  rintro (hw | ⟨hw, -⟩) <;> simp [hw] at hg

lemma tokens_perm (h : ps.Perm qs) : tokens ps = tokens qs := coe_eq_coe.mpr (h.filterMap _)

lemma tokens_filter (f : Pending → Bool) (ps : List Pending) :
    tokens (ps.filter f) + tokens (ps.filter fun p => !f p) = tokens ps := by
  rw [← tokens_append]
  exact tokens_perm (filter_append_perm f ps)

lemma transportLost_kept : Kept c (transportLost c) := by
  unfold transportLost
  by_cases hg : c.state = .Closed ∨ c.state = .RetryDecision ∨ c.state = .WaitingRetry
  · rw [if_pos hg]
    exact .refl c
  rw [if_neg hg]
  have hp := tokens_filter (fun p => c.config.autoResendUnfulfilled && p.token.isSome) c.pending
  have hd : tokens (c.pending.reverse.filter fun p => !(c.config.autoResendUnfulfilled && p.token.isSome)) =
      tokens (c.pending.filter fun p => !(c.config.autoResendUnfulfilled && p.token.isSome)) :=
    tokens_perm ((reverse_perm _).filter _)
  refine ⟨⟨_, by dsimp only; rw [append_assoc, append_assoc], ?_⟩, fun _ => ⟨nofun, .inl rfl⟩⟩
  by_cases ho : c.config.maxRetriesPerRequest.any fun n => min (c.attempt + 1) U32_MAX > n
  · simp only [owes, if_pos ho, replies_append, replies_owed, hd, tokens_nil, tokens_append, ← hp]
    simp only [replies, List.filterMap_cons, Event.replied, List.filterMap_nil, Multiset.coe_nil]
    abel
  · simp only [owes, if_neg ho, replies_append, replies_owed, hd, tokens_nil, tokens_append, ← hp]
    simp only [replies, List.filterMap_cons, Event.replied, List.filterMap_nil, Multiset.coe_nil]
    abel

lemma tokens_expire {now : ℕ} :
    tokens ps = tokens (ps.map (expire now)) + tokens (ps.filter fun p => due now p.deadline) := by
  induction ps with
  | nil => rfl
  | cons p ps ih =>
    rw [← singleton_append, tokens_append, map_append, tokens_append, filter_append, tokens_append, ih]
    have ho : tokens [p] = tokens ([p].map (expire now)) + tokens ([p].filter fun p => due now p.deadline) := by
      by_cases hd : due now p.deadline
      · simp [expire, hd, tokens]
      · simp [expire, hd, tokens]
    rw [ho]
    abel

lemma handleTimeout_kept (now : ℕ) : Kept c (handleTimeout now c) := by
  unfold handleTimeout
  set c₁ : Connection D :=
    { c with
      events := c.events ++ (c.pending.filter (fun p => due now p.deadline)).flatMap (owed "Command timed out") ++
        (c.offline.filter (fun p => due now p.deadline)).flatMap (owed "Command timed out")
      pending := c.pending.map (expire now)
      offline := c.offline.filter (fun p => !due now p.deadline) } with hc₁
  have he : Kept c c₁ := by
    refine ⟨⟨_, append_assoc _ _ _, ?_⟩, fun hs => ⟨fun hc => ?_, hs.2.imp_left fun hp => ?_⟩⟩
    · rw [replies_append, replies_owed, replies_owed, owes, owes, tokens_expire,
        ← tokens_filter (fun p => due now p.deadline) c.offline]
      abel
    · simp [hc₁, hs.1 hc]
    · simp [hc₁, hp]
  have hl : Kept c { c₁ with deadline := none } := he.trans (.quiet rfl rfl rfl id)
  dsimp only
  split_ifs
  · exact hl.trans connect_kept
  · exact hl.trans (.trans (.emit rfl) transportLost_kept)
  · exact he

lemma retry_kept {now : ℕ} {delay : Option ℕ} : Kept c (retry now delay c).2 := by
  refine Post.snd ?_
  unfold retry
  refine Post.get (Post.refuse (fun _ => .refl c) fun hg => ?_)
  cases delay with
  | some =>
    refine Post.modify (.quiet rfl rfl rfl fun hs => ⟨nofun, .inl (hs.idle ?_)⟩)
    rintro (hw | ⟨hw, -⟩) <;> simp [hw] at hg
  | none => exact Post.modify close_kept

lemma transportConnected_kept : Kept c (transportConnected c).2 := by
  refine Post.snd ?_
  unfold transportConnected
  refine Post.get (Post.refuse (fun _ => .refl c) fun hg => ?_)
  have hw : ¬ c.Waits := by
    rintro (hw | ⟨hw, -⟩) <;> simp [hw] at hg
  split_ifs
  · exact Post.modify (.of_same [.upgradeTls] rfl rfl rfl rfl fun hs => ⟨nofun, .inl (hs.idle hw)⟩)
  · exact Post.modify (beginHandshake_kept hw)

lemma tlsEstablished_kept : Kept c (tlsEstablished c).2 := by
  refine Post.snd ?_
  unfold tlsEstablished
  refine Post.get (Post.refuse (fun _ => .refl c) fun hg => Post.modify (beginHandshake_kept ?_))
  rintro (hw | ⟨hw, -⟩) <;> simp [hw] at hg

lemma consumeOutput_kept {count : ℕ} : Kept c (consumeOutput count c) := by
  unfold consumeOutput
  split_ifs
  · exact .refl c
  · exact .quiet rfl rfl rfl id
  · exact .quiet rfl rfl rfl id

lemma command_post {deadline : Option ℕ} : Post (command token args deadline) c
      (fun _ c' => token ∉ c.owes ∧ c'.owes = token ::ₘ c.owes ∧ c'.events = c.events ∧ (c.Settled → c'.Settled))
      (fun _ c' => c' = c) := by
  unfold command
  refine .get ?_
  cases args with
  | nil => exact .throw rfl
  | cons =>
    refine .refuse (fun _ => rfl) fun hf => .refuse (fun _ => rfl) fun ho => .refuse (fun _ => rfl) fun _ =>
      Post.refuse (fun _ => rfl) fun _ => ?_
    have hw : token ∉ c.owes := by
      intro hm
      rw [owes, ← tokens_append, tokens, Multiset.mem_coe, List.mem_filterMap] at hm
      obtain ⟨p, hp, hn⟩ := hm
      rw [any_eq_false] at hf
      exact hf p hp (by rw [hn, beq_self_eq_true])
    have he : ∀ (b : Bool) (p : Pending), p.token = some token →
        token ∉ c.owes ∧ (enqueue p { c with subscriber := b }).owes = token ::ₘ c.owes ∧
          (enqueue p { c with subscriber := b }).events = c.events ∧
            (c.Settled → (enqueue p { c with subscriber := b }).Settled) := by
      intro b p hp
      have hb : tokens [p] = {token} := by simp [tokens, hp]
      unfold enqueue
      split_ifs with hr
      · refine ⟨hw, ?_, rfl, fun hs => ⟨hs.1, .inr (.inl hr)⟩⟩
        simp only [owes, tokens_append, hb, ← singleton_add]
        abel
      · refine ⟨hw, ?_, rfl, fun hs => ⟨fun hc => ?_, hs.2⟩⟩
        · simp only [owes, tokens_append, hb, ← singleton_add]
          abel
        · have hd : (c.state == .Closed) = true := beq_iff_eq.mpr hc
          rw [ho] at hd
          cases hd
    refine .when (fun _ => .modify ?_) fun _ => .put (.modify ?_)
    · exact he c.subscriber _ rfl
    · exact he true _ rfl

end Connection

end Turnloop.Redis
