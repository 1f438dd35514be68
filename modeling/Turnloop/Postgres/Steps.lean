import Turnloop.Postgres.Connection

/-! What one message of the server can do to a connection. -/

namespace Turnloop.Postgres

open Lib Lib.Program Cursor

def Event.about : Event → Option ℕ
  | .fields token _ | .row token _ | .commandComplete token _ _ | .copyIn token _ _ | .copyOut token _ _
  | .copyData token _ | .copyDone token | .completed token _ _ => some token
  | .error token _ => token
  | _ => none

def Event.completes : Event → Option ℕ
  | .completed token _ _ => some token
  | _ => none

namespace Connection

variable {U : Upstream} {c c' : Connection U}

def front (c : Connection U) : Option ℕ := c.pending.head?.map Pending.token

lemma token_ok (h : c.token = .ok t) : c.front = some t := by
  unfold token at h
  unfold front
  cases hp : c.pending.head? with
  | none => simp [hp] at h
  | some => simpa [hp] using h

structure Told (c : Connection U) (e : Event) : Prop where
  about : ∀ t, e.about = some t → c.front = some t
  completes : e.completes = none
  connected : e ≠ .connected

def Reads (m : M U (Option Event)) (c : Connection U) : Prop :=
  Post m c (fun r c' => c' = c ∧ ∀ e, r = some e → Told c e) (fun _ c' => c' = c)

lemma Reads.lift {α : Type} {r : Except Error α} {k : α → M U (Option Event)}
    (h : ∀ a, r = .ok a → Reads (k a) c) : Reads (Program.lift r >>= k) c :=
  Post.lift (fun _ _ => rfl) h

lemma Reads.last (h : Told c e) : Reads (pure (some e)) c :=
  Post.pure ⟨rfl, fun _ he => Option.some.inj he ▸ h⟩

lemma Reads.token (ht : c.token = .ok t) (ha : e.about = some t) (hc : e.completes = none) : Reads (pure (some e)) c :=
  .last ⟨fun _ he => Option.some.inj (ha.symm.trans he) ▸ token_ok ht, hc, by rintro rfl; cases ha⟩

section

variable (body : Bytes)
include body

lemma rowDescription_reads : Reads (rowDescription body) c :=
  Post.get <| Reads.lift fun _ ht => .lift fun _ _ => .token ht rfl rfl

lemma dataRow_reads : Reads (dataRow body) c :=
  Post.get <| Reads.lift fun _ ht => .lift fun _ _ => .token ht rfl rfl

lemma commandComplete_reads : Reads (commandComplete body) c :=
  Reads.lift fun _ _ => .lift fun _ _ => .get <| Reads.lift fun _ ht => .token ht rfl rfl

lemma emptyQuery_reads : Reads (emptyQuery body) c :=
  Reads.lift fun _ _ => .get <| Reads.lift fun _ ht => .token ht rfl rfl

lemma copyOutResponse_reads : Reads (copyOutResponse body) c :=
  Reads.lift fun _ _ => .get <| Reads.lift fun _ ht => .token ht rfl rfl

lemma copyDataMessage_reads : Reads (copyDataMessage body) c :=
  Post.get <| Reads.lift fun _ ht => .token ht rfl rfl

lemma copyDoneMessage_reads : Reads (copyDoneMessage body) c :=
  Reads.lift fun _ _ => .get <| Reads.lift fun _ ht => .token ht rfl rfl

lemma progress_reads : Reads (progress body) c :=
  Reads.lift fun _ _ => .get <| Reads.lift fun _ _ => .pure ⟨rfl, by simp⟩

lemma parameterStatus_reads : Reads (parameterStatus body) c :=
  Reads.lift fun _ _ => .lift fun _ _ => .lift fun _ _ =>
    Reads.last ⟨by simp [Event.about], rfl, by simp⟩

lemma notice_reads : Reads (notice body) c :=
  Reads.lift fun _ _ => .last ⟨by simp [Event.about], rfl, by simp⟩

lemma notification_reads : Reads (notification body) c :=
  Reads.lift fun _ _ => .lift fun _ _ => .lift fun _ _ => .lift fun _ _ =>
    Reads.last ⟨by simp [Event.about], rfl, by simp⟩

end

lemma unexpected_reads : Reads unexpected c := rfl

def verdict (c : Connection U) (tag : Tag) (body : Bytes) : Option Bool :=
  if tag = .authentication ∧ c.state = .auth then
    match u32 body with
    | .ok (12, rest) => c.scram.map fun s => U.finish s rest
    | _ => none
  else none

inductive Authenticating (c : Connection U) : Option Bool → Except Error (Option Event) → Connection U → Prop
  | refused (e : Error) : Authenticating c none (.error e) c
  | accepted (hscram : c.scram = none) (hplus : c.config.channelBindingRequired = true → c.scramPlus = true) :
    Authenticating c none (.ok none) { c with authOk := true }
  | password {r : Except Error (Option Event)} (out : Bytes) (hr : ∀ e, r ≠ .ok (some e)) :
    Authenticating c none r { c with output := c.output ++ out }
  | needed (plus : Bool) :
    Authenticating c none (.ok (some (.scramNeeded plus))) { c with scramPlus := plus, state := .scram plus }
  | continued {r : Except Error (Option Event)} (s : U.Scram) (out : Bytes) (hs : c.scram.isSome = true)
    (hr : ∀ e, r ≠ .ok (some e)) : Authenticating c none r { c with scram := some s, output := c.output ++ out }
  | final {r : Except Error (Option Event)} (verified : Bool) (hs : c.scram.isSome = true)
    (hr : ∀ e, r ≠ .ok (some e)) : Authenticating c (some verified) r { c with scram := none }

def Authenticates (v : Option Bool) (m : M U (Option Event)) (c : Connection U) : Prop :=
  Post m c (fun r c' => Authenticating c v (.ok r) c') (fun e c' => Authenticating c v (.error e) c')

lemma Authenticates.lift {α : Type} {r : Except Error α} {k : α → M U (Option Event)}
    (h : ∀ a, r = .ok a → Authenticates none (k a) c) : Authenticates none (Program.lift r >>= k) c :=
  Post.lift (fun e _ => .refused e) h

lemma Authenticates.refuse (h : b = false → Authenticates none (k ()) c) : Authenticates none (refuse b e >>= k) c :=
  Post.refuse (fun _ => .refused e) h

lemma authenticated_authenticates {rest : Bytes} : Authenticates none (authenticated rest) c := by
  refine .lift fun _ _ => .get <| Authenticates.refuse fun hm =>
    Authenticates.refuse fun hp => .put (.pure (.accepted ?_ fun hr => ?_))
  · simpa using hm
  · simpa [hr] using hp

lemma write_password {f : Frontend} : Authenticates none (write f >>= fun _ => pure none) c := by
  refine .bind (.put (.refuse_last (fun _ => ?_) fun _ => ?_))
  · exact .password _ (by simp)
  · exact .pure (.password _ (by simp))

lemma cleartextPassword_authenticates {rest : Bytes} : Authenticates none (cleartextPassword rest) c :=
  Authenticates.lift fun _ _ => .get <| Authenticates.refuse fun _ => write_password

lemma md5Password_authenticates {rest : Bytes} : Authenticates none (md5Password rest) c :=
  Authenticates.lift fun _ _ => .lift fun _ _ => .get <|
    Authenticates.refuse fun _ => write_password

lemma sasl_authenticates {rest : Bytes} : Authenticates none (sasl rest) c :=
  Authenticates.lift fun _ _ => .lift fun _ _ => .get <|
    Authenticates.refuse fun _ => .refuse fun _ => .put (.pure (.needed _))

lemma saslContinue_authenticates {rest : Bytes} : Authenticates none (saslContinue rest) c := by
  refine .get <| Authenticates.lift fun _ _ => .refuse fun _ =>
    Authenticates.lift fun scram hm => .put ?_
  have hs : c.scram.isSome = true := by
    cases h : c.scram <;> simp_all
  refine Post.refuse (fun _ => ?_) fun _ => Post.bind (Post.put (Post.refuse_last (fun _ => ?_) fun _ => ?_))
  · have h := Authenticating.continued (c := c) (U.update scram rest).1 [] hs (r := .error .invalid) (by simp)
    rwa [List.append_nil] at h
  · exact .continued _ _ hs (by simp)
  · exact .pure (.continued _ _ hs (by simp))

lemma saslFinal_authenticates {rest : Bytes} :
    Authenticates (c.scram.map fun s => U.finish s rest) (saslFinal rest) c := by
  refine .get ?_
  cases hm : c.scram with
  | none => exact .refused _
  | some scram =>
    have hs : c.scram.isSome = true := by simp [hm]
    refine .lift (by simp) fun s hs' => .put (.refuse (fun _ => ?_) fun _ => .pure ?_)
    · exact .final _ hs (by simp)
    · exact .final _ hs (by simp)

lemma authentication_authenticates {body : Bytes} (hs : c.state = .auth) :
    Authenticates (verdict c .authentication body) (authentication body) c := by
  have hv : verdict c .authentication body = match u32 body with
      | .ok (12, rest) => c.scram.map fun s => U.finish s rest
      | _ => none := if_pos ⟨rfl, hs⟩
  rw [hv]
  unfold authentication
  cases hc : u32 body with
  | error e => exact Authenticating.refused e
  | ok code =>
    obtain ⟨code, rest⟩ := code
    refine Post.lift (by simp) fun r hr => ?_
    cases hr
    split_ifs with h0 h3 h5 h10 h11 h12
    · subst h0
      exact authenticated_authenticates
    · subst h3
      exact cleartextPassword_authenticates
    · subst h5
      exact md5Password_authenticates
    · subst h10
      exact sasl_authenticates
    · subst h11
      exact saslContinue_authenticates
    · subst h12
      exact saslFinal_authenticates
    · have hn : (match (Except.ok (code, rest) : Except Error (ℕ × Bytes)) with
          | .ok (12, rest) => c.scram.map fun s => U.finish s rest
          | _ => none) = none := by
        split
        · rename_i he
          simp only [Except.ok.injEq, Prod.mk.injEq] at he
          exact absurd he.1 h12
        · rfl
      rw [hn]
      exact Authenticating.refused _

inductive Handled (c : Connection U) : Tag → Option Bool → Except Error (Option Event) → Connection U → Prop
  | read {tag : Tag} {r : Except Error (Option Event)} (htag : tag ≠ .ready ∧ tag ≠ .parseComplete ∧ tag ≠ .error)
    (hr : ∀ e, r = .ok (some e) → Told c e) : Handled c tag none r c
  | refused {tag : Tag} (e : Error) : Handled c tag none (.error e) c
  | key {r : Except Error (Option Event)} (k : Option (ℤ × ℤ)) (hr : ∀ e, r ≠ .ok (some e)) :
    Handled c .keyData none r { c with key := k }
  | authentication {v : Option Bool} {r : Except Error (Option Event)} {c' : Connection U} (hstate : c.state = .auth)
    (h : Authenticating c v r c') : Handled c .authentication v r c'
  | status (t : TransactionStatus) (copyIn : Bool) (e : Error) :
    Handled c .ready none (.error e) { c with transaction := t, copyIn := copyIn }
  | connected (t : TransactionStatus) (hstate : c.state = .auth) (hok : c.authOk = true) :
    Handled c .ready none (.ok (some .connected)) { c with transaction := t, copyIn := false, state := .ready }
  | completed (t : TransactionStatus) {p : Pending} {rest : List Pending} (hp : c.pending = p :: rest)
    (outcome : Outcome) :
    Handled c .ready none (.ok (some (.completed p.token outcome t)))
      { c with transaction := t, copyIn := false, pending := rest, statements := released c.statements p.parse }
  | error {e : Event} (he : Told c e) : Handled c .error none (.ok (some e)) { c with pending := failFront c.pending }
  | fatal (fields : Bytes) :
    Handled c .error none (.error (.connectionAborted fields))
      { c with
        pending := failFront c.pending
        state := .closing
        reason := .connectionAborted fields
        output := []
        outputAt := 0
        copyIn := false }
  | parsed {p : Pending} {rest : List Pending} (hp : c.pending = p :: rest) :
    Handled c .parseComplete none (.ok none) { c with statements := parsedAt c.statements p.parse }
  | copyIn {e : Event} (he : Told c e) (hone : c.pending.length = 1) :
    Handled c .copyIn none (.ok (some e)) { c with copyIn := true }

def Handles (tag : Tag) (v : Option Bool) (m : M U (Option Event)) (c : Connection U) : Prop :=
  Post m c (fun r c' => Handled c tag v (.ok r) c') (fun e c' => Handled c tag v (.error e) c')

lemma Reads.handles (h : Reads m c) (hg : tag ≠ .ready ∧ tag ≠ .parseComplete ∧ tag ≠ .error) :
    Handles tag none m c := by
  refine .mono h ?_ ?_
  · rintro r c' ⟨rfl, hr⟩
    exact .read hg fun e he => hr e (Except.ok.inj he)
  · rintro e c' rfl
    exact .refused e

lemma Handles.lift {α : Type} {r : Except Error α} {k : α → M U (Option Event)}
    (h : ∀ a, r = .ok a → Handles tag none (k a) c) : Handles tag none (Program.lift r >>= k) c :=
  Post.lift (fun e _ => .refused e) h

lemma keyData_handles {body : Bytes} : Handles .keyData none (keyData body) c :=
  Handles.lift fun _ _ => .lift fun _ _ => .put <|
    Post.lift (fun _ _ => .key _ (by simp)) fun _ _ => .pure (.key _ (by simp))

lemma commandDone_post : Post commandDone c
    (fun r c' => ∃ p rest outcome, c.pending = p :: rest ∧ r = some (.completed p.token outcome c.transaction) ∧
      c' = { c with pending := rest, statements := released c.statements p.parse })
    (fun _ c' => c' = c) := by
  refine .get ?_
  cases hp : c.pending with
  | nil => exact .throw rfl
  | cons p rest => exact .put (.pure ⟨p, rest, _, rfl, rfl, rfl⟩)

lemma readyForQuery_handles {body : Bytes} : Handles .ready none (readyForQuery body) c := by
  refine .lift fun status _ => .lift fun t _ => .put <|
    Post.lift (fun e _ => .status t c.copyIn e) fun _ _ => .put (.get ?_)
  split_ifs with hs
  · refine .refuse (fun _ => .status t false _) fun ho => .put (.pure (.connected t hs ?_))
    simpa using ho
  · refine .mono commandDone_post ?_ ?_
    · rintro _ _ ⟨p, _, outcome, hp, rfl, rfl⟩
      exact .completed (c := c) t hp outcome
    · rintro e _ rfl
      exact .status (c := c) t false e

lemma errorResponse_handles {body : Bytes} : Handles .error none (errorResponse body) c := by
  refine .lift fun error _ => .get (.put ?_)
  split_ifs with hf
  · exact .put (.throw (.fatal error))
  · refine .pure (.error ⟨fun t ht => ht, rfl, by simp⟩)

lemma parseComplete_handles {body : Bytes} : Handles .parseComplete none (parseComplete body) c := by
  refine .lift fun _ _ => .get ?_
  cases hp : c.pending with
  | nil => exact .refused _
  | cons => exact .put (.pure (.parsed hp))

lemma copyInResponse_handles {body : Bytes} : Handles .copyIn none (copyInResponse body) c := by
  refine .lift fun _ _ => .get <| Handles.lift fun t ht =>
    Post.refuse (fun _ => .refused _) fun ho => .put (.pure (.copyIn ?_ ?_))
  · exact ⟨fun t' ht' => Option.some.inj ht' ▸ token_ok ht, rfl, by simp⟩
  · simpa using ho

lemma handle_handles (tag : Tag) (body : Bytes) : Handles tag (verdict c tag body) (handle tag body) c := by
  have hn : tag ≠ .authentication → verdict c tag body = none := fun h => if_neg fun h' => h h'.1
  refine .get ?_
  cases tag with
  | authentication =>
    split_ifs with hs
    · exact .mono (authentication_authenticates hs) (fun _ _ h => .authentication hs h)
        fun _ _ h => .authentication hs h
    · have hv : verdict c .authentication body = none := if_neg fun h => hs h.2
      rw [hv]
      exact unexpected_reads.handles (by simp)
  | parameterStatus => rw [hn (by simp)]; exact (parameterStatus_reads body).handles (by simp)
  | keyData => rw [hn (by simp)]; exact keyData_handles
  | ready => rw [hn (by simp)]; exact readyForQuery_handles
  | fields => rw [hn (by simp)]; exact (rowDescription_reads body).handles (by simp)
  | row => rw [hn (by simp)]; exact (dataRow_reads body).handles (by simp)
  | commandComplete => rw [hn (by simp)]; exact (commandComplete_reads body).handles (by simp)
  | emptyQuery => rw [hn (by simp)]; exact (emptyQuery_reads body).handles (by simp)
  | error => rw [hn (by simp)]; exact errorResponse_handles
  | notice => rw [hn (by simp)]; exact (notice_reads body).handles (by simp)
  | notification => rw [hn (by simp)]; exact (notification_reads body).handles (by simp)
  | parseComplete => rw [hn (by simp)]; exact parseComplete_handles
  | progress => rw [hn (by simp)]; exact (progress_reads body).handles (by simp)
  | copyIn => rw [hn (by simp)]; exact copyInResponse_handles
  | copyOut => rw [hn (by simp)]; exact (copyOutResponse_reads body).handles (by simp)
  | copyData => rw [hn (by simp)]; exact (copyDataMessage_reads body).handles (by simp)
  | copyDone => rw [hn (by simp)]; exact (copyDoneMessage_reads body).handles (by simp)
  | other => rw [hn (by simp)]; exact unexpected_reads.handles (by simp)

end Connection

end Turnloop.Postgres
