import Turnloop.Hpack.Codec
import Turnloop.Http2.Frames

/-! A history of a connection is a path of flow control, labelled by its frames, and a trace of the life of its
streams. -/

namespace Turnloop.Http2

open Lib Lib.Program List Multiset

namespace Label

def exact : Label → Bool
  | .grew id _ => id == 0
  | .initial _ | .frameSize _ | .got _ _ | .acked => true
  | _ => false

end Label

def outcome {α : Type} (ns : α → List Note) : Result α → List Note
  | .ok a => ns a
  | .error _ => []

def Call.notes {K : Codec} (call : Call) (c : Connection K) : List Note :=
  match call with
  | .openStream headers endStream => outcome (fun id => [.opened id]) (Connection.openStream headers endStream c).1
  | .reset id code => outcome (fun _ => [.reset id]) (Connection.reset id code c).1
  | .receive input => outcome (fun step => step.event.toList.map .event) (Connection.receive input c).1
  | .pollFailedStream => c.pollFailedStream.1.toList.map .terminal
  | _ => []

def Call.Scope {K : Codec} (call : Call) (c : Connection K) (l : Life.Label) : Prop :=
  match call with
  | .openStream _ _ => l = .reserved c.nextId ∨ ∃ n, l = .told n
  | .receive _ => Life.Label.Of (call.hears c) l
  | .goaway _ last _ => l = .goaway last (decide (c.highestRemote < last))
  | .shutdown | .handleTimeout _ => l = .announced c.lastRemote
  | _ => ∃ n, l = .told n

namespace Connection

variable {K : Codec} {c c' : Connection K} {xs : List Label}

structure Answers (call : Call) (c c' : Connection K) : Prop where
  hears : ∃ xs, Hears xs c c' ∧ xs.Sublist ((call.hears c).toList.flatMap Frame.tells) ∧
    (c'.failed = false → xs.filter Label.exact = ((call.hears c).toList.flatMap Frame.tells).filter Label.exact)

lemma Hears.answers (h : Hears [] c c') (hn : call.hears c = none) : Answers call c c' :=
  ⟨[], h, nil_sublist _, fun _ => by rw [hn]; rfl⟩

lemma Takes.answers (h : Takes ((Call.receive input).hears c) c c') : Answers (.receive input) c c' := by
  unfold Takes at h
  split at h
  · rename_i hn
    exact h.answers hn
  · rename_i f ho
    rcases h with h | ⟨hk, hz, h⟩
    · exact ⟨f.tells, h, by rw [ho]; simp, fun _ => by rw [ho]; simp⟩
    · refine ⟨[], h, nil_sublist _, fun _ => ?_⟩
      rw [ho]
      simp [Frame.tells, hk, Label.exact, hz]

structure Went (call : Call) (ns : List Note) (c c' : Connection K) : Prop where
  flow : Answers call c c' ∨ call.hears c = none ∧ Sends c c'
  lives : Lives (call.Scope c) ns c c'

lemma Gives.went {α : Type} {m : M K α} {n : α → List Note} {call : Call} (h : Gives (call.Scope c) n m c)
    (hn : call.hears c = none) :
    Went call (outcome n (m c).1) c (m c).2 := by
  unfold Gives Post at h
  rcases hm : m c with ⟨r, _⟩
  rw [hm] at h
  cases r with
  | ok | error => exact ⟨.inl (h.hears.answers hn), h.lives⟩

lemma Goes.went (h : Goes [] (call.Scope c) ns c c') (hn : call.hears c = none) : Went call ns c c' :=
  ⟨.inl (h.hears.answers hn), h.lives⟩

lemma exec_went (call : Call) (full : c.flow.Full) (tidy : c.life.Tidy) (odd : c.role = .client → c.nextId % 2 = 1) :
    Went call (call.notes c) c (call.exec c) := by
  cases call with
  | settings => exact (Post.snd settings_calm).goes.went rfl
  | openStream => exact Gives.went (openStream_goes odd (.inl rfl) fun id => .inr ⟨_, rfl⟩) rfl
  | sendHeaders => exact (Post.snd sendHeaders_calm).goes.went rfl
  | sendData id bytes en =>
    have he : (Hears [] c ((Call.sendData id bytes en).exec c) ∨ Sends c ((Call.sendData id bytes en).exec c)) ∧
        Quiet c ((Call.sendData id bytes en).exec c) := Post.snd sendData_sends
    obtain ⟨h | h, hq⟩ := he
    · exact ⟨.inl (h.answers rfl), hq.lives⟩
    · exact ⟨.inr ⟨rfl, h⟩, hq.lives⟩
  | releaseCapacity id n =>
    refine Goes.went (Post.snd (m := Connection.releaseCapacity id n) ?_) rfl
    exact (releaseCapacity_goes full).mono (fun _ _ h => h) (fun _ _ h => h.1)
  | reset id code =>
    refine Gives.went (m := Connection.reset id code) (n := fun _ => [.reset id]) ?_ rfl
    cases hi : c.index id with
    | none => exact resetGone_goes hi ⟨_, rfl⟩
    | some i =>
      have hb : id ≤ Life.MAX := by
        obtain ⟨_, hs, -⟩ := split Stream.life c i
        exact index_some hi ▸ tidy.bound _ (Life.Tidy.here hs)
      exact (reset_goes full hi hb (.inl rfl) ⟨_, rfl⟩).mono (fun _ _ h => h) (fun _ _ h => h.elim)
  | ping => exact (Post.snd (frame_calm rfl rfl)).goes.went rfl
  | shutdown =>
    have h : Keeps shutdown c (Goes [] (Call.Scope .shutdown c) [] c) :=
      Post.get (goaway_goes tidy .shutdown rfl rfl rfl)
    exact (Post.snd h).went rfl
  | goaway code last => exact Goes.went (Post.snd (goaway_goes tidy (.goaway last) rfl rfl rfl)) rfl
  | setSettingsDeadline => exact Goes.went (Calm.goes (.same rfl rfl rfl rfl)) rfl
  | handleTimeout => exact Goes.went (Post.snd (handleTimeout_goes tidy rfl)) rfl
  | eof => exact eof_goes.went rfl
  | pollFailedStream => exact (pollFailedStream_goes fun id => ⟨_, rfl⟩).went rfl
  | receive input =>
    have h := receive_takes input full tidy
    unfold Post at h
    change Went _ (outcome _ (Connection.receive input c).1) c (Connection.receive input c).2
    rcases hm : receive input c with ⟨r, _⟩
    rw [hm] at h
    cases r with
    | ok => exact ⟨.inl h.1.answers, h.2⟩
    | error =>
      obtain ⟨⟨hf, xs, hu, hears⟩, hl⟩ := h
      exact ⟨.inl ⟨xs, hears, hu, fun hv => nomatch hf.symm.trans hv⟩, hl⟩

end Connection

namespace Flow

variable {F G : Flow} {ls : List Label}

lemma Step.failed (h : Step F ls G) (hl : G.failed = false) : F.failed = false := by
  cases h with
  | broke => cases hl
  | _ => exact hl

lemma Path.failed (h : Path F ls G) (hl : G.failed = false) : F.failed = false := by
  induction h with
  | nil => exact hl
  | cons step path ih => exact step.failed (ih hl)

end Flow

namespace History

variable {K : Codec} {c₀ : Connection K} {h : History K} {ls : List Label}

structure Traced (c₀ : Connection K) (h : History K) (ls : List Label) : Prop where
  path : Flow.Path c₀.flow ls h.conn.flow
  said : ls.filter Label.said = h.conn.output.flatMap Frame.spoken
  heard : (ls.filter (fun l => !l.said)).Sublist (h.heard.flatMap Frame.tells)
  exact : h.conn.failed = false → ls.filter Label.exact = (h.heard.flatMap Frame.tells).filter Label.exact
  steady : h.conn.role = c₀.role ∧ h.conn.nextId % 2 = c₀.nextId % 2

lemma filter_exact (ls : List Label) : (ls.filter (fun l => !l.said)).filter Label.exact = ls.filter Label.exact := by
  rw [List.filter_filter]
  congr 1
  funext l
  cases l <;> simp [Label.exact, Label.said]

structure Living (h : History K) : Prop where
  tidy : h.conn.life.Tidy
  full : h.conn.flow.Full
  odd : h.conn.role = .client → h.conn.nextId % 2 = 1

lemma Living.went (l : Living h) (call : Call) : Connection.Went call (call.notes h.conn) h.conn (call.exec h.conn) :=
  Connection.exec_went call l.full l.tidy l.odd

lemma Living.step (l : Living h) (call : Call) : Living (h.step call) := by
  refine ⟨(l.went call).lives.tidy l.tidy, ?_, fun hc => ?_⟩
  · rcases (l.went call).flow with ⟨xs, hears, -, -⟩ | ⟨-, f, -, -, hp, -, -⟩
    · exact hears.full l.full
    · exact l.full.step hp
  · rcases (l.went call).flow with ⟨xs, ⟨-, -, -, -, -, -, hr, ha, -⟩, -, -⟩ | ⟨-, f, -, -, -, hr, hn⟩
    · exact ha.trans (l.odd (hr.symm.trans hc))
    · exact (congrArg (· % 2) hn).trans (l.odd (hr.symm.trans hc))

lemma Living.run (l : Living h) (calls : List Call) : Living (calls.foldl History.step h) := by
  induction calls generalizing h with
  | nil => exact l
  | cons call rest ih => exact ih (l.step call)

lemma Traced.step (t : Traced c₀ h ls) (living : Living h) (call : Call) :
    ∃ ms, Traced c₀ (h.step call) (ls ++ ms) := by
  rcases (living.went call).flow with ⟨_, hears, hu, he⟩ | ⟨hn, f, hk, ho, hp, hr, hx⟩
  · obtain ⟨ms, _, ha, rfl, ho, hs, hr, hc, -⟩ := hears
    refine ⟨ms, t.path.trans ha, ?_, ?_, fun hl => ?_, hr.trans t.steady.1, hc.trans t.steady.2⟩
    · rw [filter_append, t.said, ← hs, History.step, ho, flatMap_append]
    · rw [filter_append, History.step, flatMap_append]
      exact t.heard.append hu
    · have hb := t.exact (ha.failed hl)
      have hw := he hl
      rw [filter_exact] at hw
      rw [filter_append, History.step, flatMap_append, filter_append, hb, hw]
  · have hs : f.spoken = [.sent f.stream f.payload.length] := by simp [Frame.spoken, hk]
    refine ⟨_, t.path.trans (.single hp), ?_, ?_, fun hl => ?_, hr.trans t.steady.1, ?_⟩
    · rw [filter_append, t.said, History.step, ho, flatMap_append, flatMap_singleton, hs]
      rfl
    · rw [filter_append, History.step, hn]
      simpa [Label.said] using t.heard
    · rw [filter_append, History.step, hn, t.exact (hp.failed hl)]
      simp [Label.exact]
    · rw [History.step, hx]
      exact t.steady.2

lemma Traced.run (t : Traced c₀ h ls) (living : Living h) (calls : List Call) :
    ∃ ms, Traced c₀ (calls.foldl History.step h) (ls ++ ms) := by
  induction calls generalizing h ls with
  | nil => exact ⟨[], by rwa [append_nil]⟩
  | cons call calls ih =>
    obtain ⟨ms, t'⟩ := t.step living call
    obtain ⟨ms', _⟩ := ih t' (living.step call)
    exact ⟨ms ++ ms', by rwa [← append_assoc]⟩

lemma start_tidy (role : Role) (limits : Limits) : (Connection.start role limits : Connection K).flow.Tidy :=
  ⟨nodup_zero, fun p hp => absurd hp (notMem_zero p), fun p hp => absurd hp (notMem_zero p)⟩

lemma start_sending (role : Role) (limits : Limits) :
    (Connection.start role limits : Connection K).flow.Sending [] where
  tidy := start_tidy role limits
  conn := rfl
  floor := show (0 : ℤ) ≤ 65535 by decide
  cap := show (65535 : ℤ) ≤ Flow.MAX by decide
  initial := show (65535 : ℤ) ≤ Flow.MAX by decide
  idle _ _ := rfl
  caps p hp := absurd hp (notMem_zero p)
  stream _ p hp := absurd hp (notMem_zero p)

lemma start_receiving (role : Role) (limits : Limits) :
    (Connection.start role limits : Connection K).flow.Receiving [] where
  tidy := start_tidy role limits
  idle _ _ _ := le_rfl
  stream p hp := absurd hp (notMem_zero p)
  bound p hp := absurd hp (notMem_zero p)

def notes (h : History K) : List Call → List Note
  | [] => []
  | call :: rest => call.notes h.conn ++ (h.step call).notes rest

structure Lived (h : History K) (calls : List Call) (ls : List Life.Label) : Prop where
  trace : Trace Life.Step h.conn.life ls (calls.foldl step h).conn.life
  noted : ls.filterMap Life.Label.note = h.notes calls
  written : ∃ fs, (calls.foldl step h).conn.output = h.conn.output ++ fs ∧
    fs.filterMap Frame.last = ls.filterMap Life.Label.last
  inScope : ∀ l ∈ ls, ∃ before call after, calls = before ++ call :: after ∧ call.Scope (before.foldl step h).conn l
  each : ∀ before call after, calls = before ++ call :: after → ∃ ms, ms ⊆ ls ∧
    (∀ l ∈ ms, call.Scope (before.foldl step h).conn l) ∧
      ms.filterMap Life.Label.note = call.notes (before.foldl step h).conn ∧
      ∃ fs, (call.exec (before.foldl step h).conn).output = (before.foldl step h).conn.output ++ fs ∧
        fs.filterMap Frame.last = ms.filterMap Life.Label.last

lemma Living.lived (l : Living h) (calls : List Call) : ∃ ls, Lived h calls ls := by
  induction calls generalizing h with
  | nil => exact ⟨[], .nil, rfl, ⟨[], (append_nil _).symm, rfl⟩, nofun, fun before call after h => by simp at h⟩
  | cons call rest ih =>
    obtain ⟨ls, fs, hr, hc, hn, ho, ha⟩ := (l.went call).lives
    obtain ⟨ms, lived⟩ := ih (l.step call)
    obtain ⟨gs, ho', hl'⟩ := lived.written
    refine ⟨ls ++ ms, hr.trans lived.trace, ?_, ⟨fs ++ gs, ?_, ?_⟩, fun m hm => ?_, fun before call' after hb => ?_⟩
    · rw [filterMap_append, hn, lived.noted]
      rfl
    · rw [List.foldl_cons, ho', History.step, ho, List.append_assoc]
    · rw [filterMap_append, filterMap_append, ha, hl']
    · rcases mem_append.mp hm with hm | hm
      · exact ⟨[], call, rest, rfl, hc m hm⟩
      · obtain ⟨before, call', after, rfl, hm⟩ := lived.inScope m hm
        exact ⟨call :: before, call', after, rfl, hm⟩
    · cases before with
      | nil =>
        obtain ⟨rfl, rfl⟩ := cons.inj hb
        exact ⟨ls, subset_append_left _ _, hc, hn, fs, ho, ha⟩
      | cons first before =>
        obtain ⟨rfl, he⟩ := cons.inj hb
        obtain ⟨ms', hu, ht⟩ := lived.each before call' after he
        exact ⟨ms', fun l hl => mem_append_right _ (hu hl), ht⟩

lemma start_life (role : Role) (limits : Limits) : (Connection.start role limits : Connection K).life.Tidy where
  keyed := nodup_zero
  known p hp := absurd hp (notMem_zero p)
  nonzero p hp := absurd hp (notMem_zero p)
  bound p hp := absurd hp (notMem_zero p)
  last := Nat.zero_le _
  frame := show 0 < 16384 ∧ 16384 ≤ 0xffffff by decide
  doom _ _ h := nomatch h
  turned _ h := nomatch h

lemma start_living (role : Role) (limits : Limits) : Living (⟨Connection.start role limits, []⟩ : History K) where
  tidy := start_life role limits
  full := ⟨rfl, show (0 : ℤ) ≤ 65535 by decide⟩
  odd h := by
    have hr : role = .client := h
    simp [Connection.start, hr]

variable {role : Role} {limits : Limits} {settings : Settings} {c : Connection K}

section

variable (new : Connection.withSettings role limits settings = .ok c)
include new

lemma new_life : c.life = (Connection.start role limits : Connection K).life :=
  (Connection.withSettings_ok new).2.quiet.1

lemma new_output : c.output.filterMap Frame.last = [] := by
  obtain ⟨-, _, ho, hn⟩ := (Connection.withSettings_ok new).2.quiet
  rw [ho]
  exact hn

lemma living (calls : List Call) : Living (run c calls) := by
  have hc := (Connection.withSettings_ok new).2
  have hs := start_living (K := K) role limits
  refine Living.run ⟨new_life new ▸ hs.tidy, hc.hears.full hs.full, fun hl => ?_⟩ calls
  obtain ⟨-, -, -, -, -, -, hr, hp, -⟩ := hc.hears
  exact hp.trans (hs.odd (hr.symm.trans hl))

end

lemma traced_new (h : Connection.withSettings role limits settings = .ok c) :
    ∃ ls, Traced (Connection.start role limits) ⟨c, []⟩ ls := by
  obtain ⟨-, ⟨ls, fs, hp, hn, ho, hs, hr, hb, -⟩, -⟩ := Connection.withSettings_ok h
  have hf : c.output = fs := ho
  have he : ls.filter Label.exact = [] := by rw [← filter_exact, hn, filter_nil]
  exact ⟨ls, hp, by rw [← hs, hf], by rw [hn]; exact nil_sublist _, fun _ => he, hr, hb⟩

lemma traced (h : Connection.withSettings role limits settings = .ok c) (calls : List Call) :
    ∃ ls, Traced (Connection.start role limits) (run c calls) ls := by
  obtain ⟨ls, t⟩ := traced_new h
  obtain ⟨_, t'⟩ := t.run (living h []) calls
  exact ⟨_, t'⟩

end History

def requestHead : List Header := [⟨":method", ascii "POST"⟩, ⟨":scheme", ascii "http"⟩, ⟨":path", ascii "/"⟩]

/-- The head `requestHead`, each field by its index. -/
def requestBlock : Bytes := [0x83, 0x86, 0x84]

def Connection.plain {K : Codec} (role : Role) : Connection K :=
  (sendSettings (announced role .new) (start role .default)).2

lemma Connection.withSettings_plain (role : Role) :
    Connection.withSettings role .default .new = .ok (Connection.plain role : Connection K) := by
  cases role <;> rfl

end Turnloop.Http2
