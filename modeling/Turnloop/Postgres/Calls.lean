import Turnloop.Postgres.Steps

/-! The calls of a host on a connection, and everything that each of them can do. -/

namespace Turnloop.Postgres

open Lib Lib.Program Cursor

inductive Call (U : Upstream)
  | consumeOutput (n : ℕ)
  | receive (bytes : Bytes)
  | tlsEstablished (available : Bool)
  | startScram (scram : U.Scram)
  | query (token : ℕ) (sql : String) (deadline : Option ℕ)
  | execute (token : ℕ) (q : ExtendedQuery) (deadline : Option ℕ)
  | copyData (bytes : Bytes)
  | copyFinish (error : Option String)
  | handleTimeout (now : ℕ)
  | abort (reason : Error)
  | end_
  | nextEvent

def Call.pulls {U : Upstream} : Call U → Bool
  | .nextEvent => true
  | _ => false

def Call.closes {U : Upstream} : Call U → Bool
  | .handleTimeout _ | .abort _ => true
  | _ => false

namespace Connection

variable {U : Upstream} {c c' : Connection U}

def call : Call U → M U (Option Event)
  | .consumeOutput n => do
    consumeOutput n
    pure none
  | .receive bytes => do
    receive bytes
    pure none
  | .tlsEstablished available => do
    tlsEstablished available
    pure none
  | .startScram scram => do
    startScram scram
    pure none
  | .query token sql deadline => do
    query token sql deadline
    pure none
  | .execute token q deadline => do
    execute token q deadline
    pure none
  | .copyData bytes => do
    copyData bytes
    pure none
  | .copyFinish error => do
    copyFinish error
    pure none
  | .handleTimeout now => do
    modify fun c => c.handleTimeout now
    pure none
  | .abort reason => do
    modify fun c => c.abort reason
    pure none
  | .end_ => do
    end_
    pure none
  | .nextEvent => nextEvent

def messageVerdicts : ℕ → Connection U → List Bool
  | 0, _ => []
  | n + 1, c =>
    match header c.config.maxBuffer c.available with
    | .ok (some (tag, body, length)) =>
      (verdict (c.advanced length) (Tag.of tag) body).toList ++ match handle (Tag.of tag) body (c.advanced length) with
        | (.ok none, c') => messageVerdicts n c'
        | _ => []
    | _ => []

def verdicts (c : Connection U) : List Bool :=
  match c.state with
  | .ssl =>
    if c.available.head? = some 78 ∧ c.config.ssl = .prefer then messageVerdicts c.input.length (c.advanced 1).startup
    else []
  | .auth => messageVerdicts c.input.length c
  | .ready => messageVerdicts c.input.length c
  | _ => []

inductive Pulled : Connection U → List Bool → Except Error (Option Event) → Connection U → Prop
  | idle (c : Connection U) : Pulled c [] (.ok none) c
  | refused (c : Connection U) (e : Error) : Pulled c [] (.error e) c
  | withdrawn {c : Connection U} {p : Pending} {rest : List Pending} (hstate : c.state = .closing)
    (hp : c.pending = p :: rest) :
    Pulled c [] (.ok (some (.completed p.token (.aborted c.reason) c.transaction))) { c with pending := rest }
  | closed {c : Connection U} (hstate : c.state = .closing) (hp : c.pending = []) (hsent : c.unsent = []) :
    Pulled c [] (.ok (some (.closed c.reason))) { c with state := .closed }
  | tls {c : Connection U} (hstate : c.state = .ssl) (hinput : c.input.length = c.inputAt + 1) :
    Pulled c [] (.ok (some .upgradeTls)) { c.advanced 1 with state := .tls }
  | declined {c : Connection U} (hstate : c.state = .ssl) (e : Error) : Pulled c [] (.error e) (c.advanced 1)
  | plain {c c' : Connection U} {vs : List Bool} {r : Except Error (Option Event)} (hstate : c.state = .ssl)
    (hssl : c.config.ssl = .prefer) (h : Pulled (c.advanced 1).startup vs r c') : Pulled c vs r c'
  | message {c c₁ c' : Connection U} {tag : UInt8} {body : Bytes} {length : ℕ} {v : Option Bool} {vs : List Bool}
    {r : Except Error (Option Event)} (hstate : c.state = .auth ∨ c.state = .ready)
    (hframe : header c.config.maxBuffer c.available = .ok (some (tag, body, length)))
    (hrun : handle (Tag.of tag) body (c.advanced length) = (.ok none, c₁))
    (h₁ : Handled (c.advanced length) (Tag.of tag) v (.ok none) c₁) (h : Pulled c₁ vs r c') :
    Pulled c (v.toList ++ vs) r c'
  | last {c c' : Connection U} {tag : UInt8} {body : Bytes} {length : ℕ} {v : Option Bool}
    {r : Except Error (Option Event)} (hstate : c.state = .auth ∨ c.state = .ready)
    (hframe : header c.config.maxBuffer c.available = .ok (some (tag, body, length)))
    (hrun : handle (Tag.of tag) body (c.advanced length) = (r, c'))
    (h : Handled (c.advanced length) (Tag.of tag) v r c') : Pulled c v.toList r c'

lemma Handled.going (h : Handled c tag v (.ok none) c') (hs : c.state = .auth ∨ c.state = .ready) :
    c'.state = .auth ∨ c'.state = .ready := by
  cases h with
  | read | key => exact hs
  | authentication _ h =>
    cases h with
    | accepted | password | continued | final => exact hs
  | parsed => exact hs

lemma messages_succ (n : ℕ) (c : Connection U) : messages (n + 1) c = match header c.config.maxBuffer c.available with
      | .error e => (.error e, c)
      | .ok none => (.ok none, c)
      | .ok (some (tag, body, length)) =>
        match handle (Tag.of tag) body (c.advanced length) with
        | (.error e, c') => (.error e, c')
        | (.ok none, c') => messages n c'
        | (.ok (some e), c') => (.ok (some e), c') := by
  rw [messages]
  change (Program.lift (header c.config.maxBuffer c.available) >>= _) c = _
  rw [bind_apply]
  unfold Program.lift
  rcases header c.config.maxBuffer c.available with e | _ | ⟨tag, body, length⟩
  · rfl
  · rfl
  · change ((handle (.of tag) body >>= orNext (messages n)) (c.advanced length)) = _
    rw [bind_apply]
    dsimp only
    rcases handle (.of tag) body (c.advanced length) with ⟨e | _ | e, c'⟩ <;> rfl

lemma handle_handled (c : Connection U) (tag : Tag) (body : Bytes) :
    Handled c tag (verdict c tag body) (handle tag body c).1 (handle tag body c).2 := by
  have h := handle_handles (c := c) tag body
  unfold Handles Post at h
  rcases hr : handle tag body c with ⟨r, _⟩
  rw [hr] at h
  cases r with
  | ok | error => exact h

lemma messages_pulled (hs : c.state = .auth ∨ c.state = .ready) :
    Pulled c (messageVerdicts n c) (messages n c).1 (messages n c).2 := by
  induction n generalizing c with
  | zero => exact .idle c
  | succ n ih =>
    rw [messages_succ, messageVerdicts]
    rcases hf : header c.config.maxBuffer c.available with e | _ | ⟨tag, body, length⟩
    · exact .refused c e
    · exact .idle c
    · have hh := handle_handled (c.advanced length) (.of tag) body
      dsimp only
      rcases hr : handle (.of tag) body (c.advanced length) with ⟨e | _ | e, _⟩
      · rw [hr] at hh
        rw [List.append_nil]
        exact .last hs hf hr hh
      · rw [hr] at hh
        exact .message hs hf hr hh (ih (hh.going hs))
      · rw [hr] at hh
        rw [List.append_nil]
        exact .last hs hf hr hh

def Pulls (c : Connection U) (vs : List Bool) (m : M U (Option Event)) (s : Connection U) : Prop :=
  Post m s (fun r c' => Pulled c vs (.ok r) c') (fun e c' => Pulled c vs (.error e) c')

lemma pulls_iff : Pulls c vs m s ↔ Pulled c vs (m s).1 (m s).2 := by
  unfold Pulls Post
  rcases m s with ⟨r, _⟩
  cases r <;> rfl

lemma closingEvent_pulls (hs : c.state = .closing) : Pulls c [] closingEvent c := by
  refine .get ?_
  cases hp : c.pending with
  | cons => exact .put (.pure (.withdrawn hs hp))
  | nil =>
    split_ifs with he
    · exact .pure (.idle c)
    · exact .put (.pure (.closed hs hp (by simpa using he)))

lemma sslReply_pulls (hs : c.state = .ssl) (hi : c.available = reply :: rest) :
    Pulls c c.verdicts (sslReply reply) c := by
  have hv : c.verdicts = if reply = 78 ∧ c.config.ssl = .prefer then
      messageVerdicts c.input.length (c.advanced 1).startup else [] := by
    simp [verdicts, hs, hi]
  rw [hv]
  refine .put (.get ?_)
  by_cases h83 : reply = 83
  · rw [if_pos h83, if_neg (by simp [h83])]
    refine .refuse (fun _ => .declined hs _) fun hl => .put (.pure (.tls hs ?_))
    exact not_not.mp (of_decide_eq_false hl)
  · rw [if_neg h83]
    by_cases h78 : reply = 78
    · rw [if_pos h78]
      by_cases hb : c.config.ssl = .prefer
      · rw [if_pos ⟨h78, hb⟩]
        refine .refuse (fun hn => absurd hb (of_decide_eq_true hn)) fun _ => .put ?_
        have hr : Pulls (c.advanced 1).startup (messageVerdicts c.input.length (c.advanced 1).startup)
            (messages (c.advanced 1).input.length) (c.advanced 1).startup := pulls_iff.mpr (messages_pulled (.inl rfl))
        exact .mono hr (fun _ _ h => .plain hs hb h) fun _ _ h => .plain hs hb h
      · rw [if_neg (by simp [hb])]
        exact .refuse (fun _ => .declined hs _) fun hn =>
          absurd (not_not.mp (of_decide_eq_false hn)) hb
    · rw [if_neg h78, if_neg (by simp [h78])]
      exact .declined hs _

lemma nextEvent_pulls (c : Connection U) : Pulls c c.verdicts nextEvent c := by
  have hq : ∀ s, c.state = s → s ≠ .ssl → s ≠ .auth → s ≠ .ready → c.verdicts = [] := by
    intro s _ _ _ _
    unfold verdicts
    cases s <;> simp_all
  refine .get ?_
  cases hs : c.state with
  | closing =>
    rw [hq _ hs (by simp) (by simp) (by simp)]
    exact closingEvent_pulls hs
  | scram =>
    rw [hq _ hs (by simp) (by simp) (by simp)]
    exact .refused c _
  | closed | tls =>
    rw [hq _ hs (by simp) (by simp) (by simp)]
    exact .idle c
  | ssl =>
    cases hi : c.available with
    | nil =>
      have hv : c.verdicts = [] := by simp [verdicts, hs, hi]
      rw [hv]
      exact .idle c
    | cons => exact sslReply_pulls hs hi
  | auth =>
    have hv : c.verdicts = messageVerdicts c.input.length c := by simp [verdicts, hs]
    rw [hv]
    exact pulls_iff.mpr (messages_pulled (.inl hs))
  | ready =>
    have hv : c.verdicts = messageVerdicts c.input.length c := by simp [verdicts, hs]
    rw [hv]
    exact pulls_iff.mpr (messages_pulled (.inr hs))

lemma Handled.input (h : Handled c tag v r c') : c'.available = c.available := by
  cases h with
  | authentication _ h => cases h <;> rfl
  | _ => rfl

def closeDown (c : Connection U) (reason : Error) : Connection U :=
  { c with reason := reason, state := .closing, output := [], outputAt := 0, copyIn := false }

inductive Called (c : Connection U) : Call U → Except Error (Option Event) → Connection U → Prop
  | refused {call : Call U} (hcall : call.pulls = false) (e : Error) : Called c call (.error e) c
  | unchanged {call : Call U} (hcall : call.closes = true) : Called c call (.ok none) c
  | consumed (n : ℕ) {output : Bytes} {outputAt : ℕ} (hn : n ≤ c.unsent.length)
    (hrest : output.drop outputAt = c.unsent.drop n) :
    Called c (.consumeOutput n) (.ok none) { c with output := output, outputAt := outputAt }
  | received (bytes : Bytes) (hstate : c.state ≠ .tls ∧ c.state ≠ .closing ∧ c.state ≠ .closed) :
    Called c (.receive bytes) (.ok none) { c with input := c.available ++ bytes, inputAt := 0 }
  | overflowed (bytes : Bytes) (hstate : c.state ≠ .closing ∧ c.state ≠ .closed) :
    Called c (.receive bytes) (.error .limit) (c.closeDown .limit)
  | timedOut (now : ℕ) (hstate : c.state ≠ .closing ∧ c.state ≠ .closed) :
    Called c (.handleTimeout now) (.ok none) (c.closeDown .timeout)
  | aborted (reason : Error) (hstate : c.state ≠ .closing ∧ c.state ≠ .closed) :
    Called c (.abort reason) (.ok none) (c.closeDown reason)
  | upgraded (available : Bool) (hstate : c.state = .tls) (hsent : c.unsent = []) :
    Called c (.tlsEstablished available) (.ok none) { c with tls := true, bindingAvailable := available }.startup
  | scramLost {plus : Bool} (scram : U.Scram) (out : Bytes) (e : Error) (hstate : c.state = .scram plus) :
    Called c (.startScram scram) (.error e) { c with output := c.output ++ out }
  | scramStarted {plus : Bool} (scram : U.Scram) (out : Bytes) (hstate : c.state = .scram plus) :
    Called c (.startScram scram) (.ok none) { c with output := c.output ++ out, scram := some scram, state := .auth }
  | queried (token : ℕ) (sql : String) (deadline : Option ℕ) (out : Bytes) (hready : c.state = .ready)
    (hcopy : c.copyIn = false) :
    Called c (.query token sql deadline) (.ok none)
      { c with output := c.output ++ out, pending := c.pending ++ [⟨token, deadline, false, false, none⟩] }
  | executed (token : ℕ) (q : ExtendedQuery) (deadline : Option ℕ) (out : Bytes) (hready : c.state = .ready)
    (hcopy : c.copyIn = false) (hcheck : c.checkCached q = .ok ())
    (hold : q.name.isEmpty = true ∨ (c.cached q.name).isSome = true) :
    Called c (.execute token q deadline) (.ok none)
      { c with output := c.output ++ out, pending := c.pending ++ [⟨token, deadline, false, true, none⟩] }
  | registered (token : ℕ) (q : ExtendedQuery) (deadline : Option ℕ) (out : Bytes) (hready : c.state = .ready)
    (hcopy : c.copyIn = false) (hname : q.name.isEmpty = false) (hnew : c.cached q.name = none) :
    Called c (.execute token q deadline) (.ok none)
      { c with
        output := c.output ++ out
        pending := c.pending ++ [⟨token, deadline, false, true, some c.statements.length⟩]
        statements := c.statements ++ [⟨q.name, q.sql, q.oids, false⟩] }
  | copied (bytes out : Bytes) (hcopy : c.copyIn = true) :
    Called c (.copyData bytes) (.ok none) { c with output := c.output ++ out }
  | copyFinished (error : Option String) (out : Bytes) (hcopy : c.copyIn = true) :
    Called c (.copyFinish error) (.ok none) { c with output := c.output ++ out, copyIn := false }
  | ended (out : Bytes) (hready : c.state = .ready) (hp : c.pending = []) :
    Called c .end_ (.ok none) { c with output := c.output ++ out, state := .closing, reason := .cancelled }
  | pulled {r : Except Error (Option Event)} {c' : Connection U} (h : Pulled c c.verdicts r c') :
    Called c .nextEvent r c'

def Calls (c : Connection U) (call : Call U) (m : M U Unit) (s : Connection U) : Prop :=
  Post m s (fun _ c' => Called c call (.ok none) c') (fun e c' => Called c call (.error e) c')

lemma consumeOutput_calls : Calls c (.consumeOutput n) (consumeOutput n) c := by
  refine .get (.refuse (fun _ => .refused rfl _) fun hn => ?_)
  have hn : n ≤ c.unsent.length := by simpa using hn
  split_ifs with ha
  · refine .modify (.consumed n hn ?_)
    simp only [unsent, List.drop_drop, ha, List.drop_length, List.drop_nil]
  · refine .modify (.consumed n hn ?_)
    simp only [unsent, List.drop_drop]

lemma abort_open (hs : c.state ≠ .closing ∧ c.state ≠ .closed) {reason : Error} :
    c.abort reason = c.closeDown reason := by
  rw [abort, if_neg (by simp [hs.1, hs.2])]
  rfl

lemma abort_cases (reason : Error) :
    c.abort reason = c ∨ ((c.state ≠ .closing ∧ c.state ≠ .closed) ∧ c.abort reason = c.closeDown reason) := by
  by_cases hs : c.state = .closing ∨ c.state = .closed
  · exact .inl (if_pos hs)
  · rw [not_or] at hs
    exact .inr ⟨hs, abort_open hs⟩

lemma receive_calls : Calls c (.receive bytes) (receive bytes) c := by
  refine .get (.refuse (fun _ => .refused rfl _) fun hs => ?_)
  have hs : c.state ≠ .tls ∧ c.state ≠ .closing ∧ c.state ≠ .closed := by simpa [and_assoc] using hs
  split_ifs
  · refine .put (.throw ?_)
    rw [abort_open hs.2]
    exact .overflowed bytes hs.2
  · exact .modify (.received bytes hs)

lemma tlsEstablished_calls {available : Bool} : Calls c (.tlsEstablished available) (tlsEstablished available) c := by
  refine .get (.refuse (fun _ => .refused rfl _) fun hs => .refuse (fun _ => .refused rfl _) fun _ => ?_)
  have hs : c.state = .tls ∧ c.unsent = [] := by simpa using hs
  exact .put (.modify (.upgraded available hs.1 hs.2))

lemma startScram_calls {scram : U.Scram} : Calls c (.startScram scram) (startScram scram) c := by
  refine .get ?_
  cases hs : c.state with
  | scram =>
    refine .refuse (fun _ => .refused rfl _) fun _ => .bind (.put (.refuse_last (fun _ => ?_) fun _ => ?_))
    · exact .scramLost scram _ _ hs
    · exact .modify (.scramStarted scram _ hs)
  | _ => exact .refused rfl _

lemma accept_ok {token : ℕ} (h : c.accept token = .ok u) : c.state = .ready ∧ c.copyIn = false := by
  unfold accept at h
  split_ifs at h with hr
  simpa using hr

lemma finishCommand_calls {call : Call U} (hc : call.pulls = false) {token : ℕ} (deadline parse : Option ℕ)
    {result : Option Error}
    {extended : Bool} {out : Bytes} (ho : c₁.output = c.output ++ out)
    (hb : result.isSome = true ∨ c₁.config.maxBuffer < c₁.output.length → { c₁ with output := c.output } = c)
    (hd : result = none → c₁.output.length ≤ c₁.config.maxBuffer →
      Called c call (.ok none) { c₁ with pending := c₁.pending ++ [⟨token, deadline, false, extended, parse⟩] }) :
    Calls c call (finishCommand token deadline parse c.output.length result extended) c₁ := by
  have ha : c₁.truncate c.output.length = { c₁ with output := c.output } := by
    rw [truncate, ho, List.take_left]
  cases result with
  | some e =>
    refine .put (.throw ?_)
    rw [ha, hb (Or.inl rfl)]
    exact .refused hc e
  | none =>
    refine .get ?_
    split_ifs with hl
    · refine .put (.throw ?_)
      rw [ha, hb (Or.inr hl)]
      exact .refused hc _
    · exact .modify (hd rfl (not_lt.mp hl))

lemma query_calls {token : ℕ} {deadline : Option ℕ} :
    Calls c (.query token sql deadline) (query token sql deadline) c := by
  refine .get (.lift (fun _ _ => .refused rfl _) fun _ ha =>
    Post.refuse (fun _ => .refused rfl _) fun _ => .put ?_)
  obtain ⟨hr, hc⟩ := accept_ok ha
  exact finishCommand_calls rfl deadline none rfl (fun _ => rfl) fun _ _ =>
    .queried token sql deadline _ hr hc

lemma execute_calls {token : ℕ} {q : ExtendedQuery} {deadline : Option ℕ} :
    Calls c (.execute token q deadline) (execute token q deadline) c := by
  refine .get (.lift (fun _ _ => .refused rfl _) fun _ ha =>
    Post.refuse (fun _ => .refused rfl _) fun _ => .refuse (fun _ => .refused rfl _) fun _ =>
    Post.lift (fun _ _ => .refused rfl _) fun u hc => .put ?_)
  obtain ⟨hr, hy⟩ := accept_ok ha
  refine .when (fun he => ?_) fun he => .put ?_
  · rw [he]
    refine finishCommand_calls rfl deadline none rfl (fun _ => rfl) fun hw hf => ?_
    refine .executed token q deadline _ hr hy hc ?_
    rw [hw, decide_eq_true hf] at he
    cases hn : q.name.isEmpty with
    | true => exact .inl rfl
    | false => exact .inr (by simpa [hn] using he)
  · rw [he]
    simp only [Bool.and_eq_true, Option.isNone_iff_eq_none, decide_eq_true_eq, Bool.not_eq_true'] at he
    obtain ⟨⟨⟨hw, hf⟩, hb⟩, hn⟩ := he
    refine finishCommand_calls rfl deadline (some c.statements.length) rfl (fun hd => ?_) fun _ _ => ?_
    · rw [hw] at hd
      rcases hd with hd | hd
      · simp at hd
      · exact absurd hf (not_le.mpr hd)
    · exact .registered token q deadline _ hr hy hn hb

lemma copyData_calls : Calls c (.copyData bytes) (copyData bytes) c := by
  refine .get (.refuse (fun _ => .refused rfl _) fun hc => .refuse (fun _ => .refused rfl _) fun _ =>
    Post.refuse (fun _ => .refused rfl _) fun _ => .modify (.copied bytes _ ?_))
  simpa using hc

lemma copyFinish_calls : Calls c (.copyFinish error) (copyFinish error) c := by
  refine .get (.refuse (fun _ => .refused rfl _) fun hc => .refuse (fun _ => .refused rfl _) fun _ =>
    Post.modify (.copyFinished error _ ?_))
  simpa using hc

lemma end_calls : Calls c .end_ end_ c := by
  refine .get (.refuse (fun _ => .refused rfl _) fun hi => .modify ?_)
  have hi : c.pending = [] ∧ c.state = .ready := by simpa using hi
  exact .ended _ hi.2 hi.1

lemma Calls.called {call : Call U} (h : Calls c call m c) (hc : Connection.call call = m >>= fun _ => pure none) :
    Called c call (Connection.call call c).1 (Connection.call call c).2 := by
  rw [hc, bind_apply]
  unfold Calls Post at h
  rcases hr : m c with ⟨r, _⟩
  rw [hr] at h
  cases r with
  | ok | error => exact h

lemma call_called (c : Connection U) (call : Call U) :
    Called c call (Connection.call call c).1 (Connection.call call c).2 := by
  cases call with
  | consumeOutput n => exact consumeOutput_calls.called rfl
  | receive bytes => exact receive_calls.called rfl
  | tlsEstablished available => exact tlsEstablished_calls.called rfl
  | startScram scram => exact startScram_calls.called rfl
  | query token sql deadline => exact query_calls.called rfl
  | execute token q deadline => exact execute_calls.called rfl
  | copyData bytes => exact copyData_calls.called rfl
  | copyFinish error => exact copyFinish_calls.called rfl
  | end_ => exact end_calls.called rfl
  | nextEvent => exact .pulled (pulls_iff.mp (nextEvent_pulls c))
  | handleTimeout now =>
    change Called c _ (.ok none) (c.handleTimeout now)
    unfold handleTimeout
    split_ifs
    · rcases abort_cases (c := c) .timeout with he | ⟨hs, ha⟩
      · rw [he]
        exact .unchanged rfl
      · rw [ha]
        exact .timedOut now hs
    · exact .unchanged rfl
  | abort reason =>
    change Called c _ (.ok none) (c.abort reason)
    rcases abort_cases (c := c) reason with he | ⟨hs, ha⟩
    · rw [he]
      exact .unchanged rfl
    · rw [ha]
      exact .aborted reason hs

end Connection

end Turnloop.Postgres
