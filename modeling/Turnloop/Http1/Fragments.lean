import Turnloop.Http1.Steps
import Turnloop.Http1.Parse

/-! What the decoder makes of a stream does not depend on its pieces, with one exception. -/

namespace Turnloop.Http1

open Http2 (Header)
open Lib
open List hiding head

namespace Event

def content : Event → List (UInt8 ⊕ Event)
  | Body bytes => bytes.map .inl
  | event => [.inr event]

def glue (bytes : Bytes) : List Event → List Event
  | Body more :: events => Body (bytes ++ more) :: events
  | events => Body bytes :: events

def merge : List Event → List Event
  | [] => []
  | Body bytes :: events => glue bytes (merge events)
  | event :: events => event :: merge events

def join : List (UInt8 ⊕ Event) → List Event
  | [] => []
  | .inl b :: rest => glue [b] (join rest)
  | .inr event :: rest => event :: join rest

lemma glue_glue (bytes more : Bytes) (events : List Event) :
    glue bytes (glue more events) = glue (bytes ++ more) events := by
  cases events with
  | nil => rfl
  | cons event =>
    cases event with
    | Body => simp only [glue, append_assoc]
    | _ => rfl

lemma join_bytes {bytes : Bytes} (h : bytes ≠ []) (rest : List (UInt8 ⊕ Event)) :
    join (bytes.map .inl ++ rest) = glue bytes (join rest) := by
  induction bytes with
  | nil => exact absurd rfl h
  | cons b bytes ih =>
    by_cases hb : bytes = []
    · rw [hb]
      rfl
    · rw [map_cons, cons_append, join, ih hb, glue_glue]
      rfl

lemma join_content {events : List Event} (h : ∀ event ∈ events, event ≠ Body []) :
    join (events.flatMap content) = merge events := by
  induction events with
  | nil => rfl
  | cons event events ih =>
    have hr := ih fun e he => h e (mem_cons_of_mem _ he)
    cases event with
    | Body bytes =>
      have hb : bytes ≠ [] := fun hn => h _ (mem_cons_self ..) (by rw [hn])
      rw [flatMap_cons, content, join_bytes hb, hr, merge]
    | _ => exact congrArg (cons _) hr

end Event

namespace Decoder

variable (p : Parser)

lemma host_splits : (host p).Splits Sound Event.content Tears where
  good_step hd h := hd.step (step_some.mp h)
  idle := by
    intro d x n event d' h hm
    have ho := receiveInner_moves (step_some.mp h)
    generalize hs : (⟨n, event⟩ : Step) = s at ho
    cases ho with
    | idle =>
      cases hs
      exact ⟨rfl, rfl, rfl⟩
    | settled hp =>
      subst hs
      simp [host, progressed, Nat.pos_iff_ne_zero.mp hp] at hm
    | owed | slice =>
      cases hs
      simp [host, progressed] at hm
  late := by
    intro d x y n event d' h hi h' hm
    have ho := receiveInner_moves (step_some.mp h)
    generalize hs : (⟨0, none⟩ : Step) = s at ho
    cases ho with
    | idle hw hl =>
      rcases hl y d' _ (step_some.mp h') with he | he
      · cases he
        have ho' := receiveInner_moves (step_some.mp h')
        generalize hs' : (⟨0, none⟩ : Step) = s at ho'
        cases ho' with
        | idle => cases hm.symm.trans hi
        | settled hp =>
          subst hs'
          cases hp
        | owed | slice => exact absurd (congrArg Step.event hs') (by simp)
      · exact he
    | settled hp =>
      subst hs
      cases hp
    | owed | slice => exact absurd (congrArg Step.event hs) (by simp)
  stops h := step_none.mpr h.error
  fails := by
    intro d x y hd h
    obtain ⟨d', e, hi⟩ := step_none.mp h
    rcases receiveInner_error hd hi y with hl | he
    · exact .inl (step_none.mpr hl)
    · exact .inr he
  takes := by
    intro d x n event d' _ h hm
    have ho := receiveInner_moves (step_some.mp h)
    generalize hs : (⟨n, event⟩ : Step) = s at ho
    cases ho with
    | idle hw =>
      cases hs
      simp [host, progressed, hw] at hm
    | settled hp hb ha =>
      subst hs
      exact ⟨hb, fun y _ => .inl (step_some.mpr (ha y))⟩
    | owed hw hw' ha =>
      cases hs
      exact ⟨Nat.zero_le _, fun y _ => .inl (step_some.mpr (ha y))⟩
    | slice hx hw hn hl =>
      cases hs
      refine ⟨le_rfl, fun y hy => .inr ?_⟩
      obtain ⟨m, d'', hm', hy', hc⟩ := hl y hy
      refine ⟨rfl, step_some.mpr hn,
        by simp [host, progressed, hw], fun u v ht => ?_, m, _, _, d'', hm', step_some.mpr hy', ?_,
        step_some.mpr hc, ?_, ?_⟩
      · -- a chunk-size line shows nothing
        simp only [receiveInner, ht.1, receiveChunkSize] at hy'
        split_ifs at hy'
        · cases hy'
        · split at hy'
          · cases hy'
          · split at hy' <;> cases hy'
      · simp [host, progressed]
      · simp [host, progressed]
      · simp [Event.content]

def start (mode : Mode) (limits : Limits) (method : Option String) : Decoder :=
  method.elim (new mode limits) (new mode limits).responseTo

def read (d : Decoder) (pieces : List Bytes) : List Event × Stand Decoder UInt8 :=
  (host p).feedAll (.waiting d []) pieces

/-- The stream has a chunk-size line of just the limit, and a piece ends inside its line end. -/
def Torn (d : Decoder) (pieces : List Bytes) : Prop := Stepper.Torn (host p) Tears d [] pieces

variable {p} {mode : Mode} {limits : Limits} {method : Option String}

lemma start_state : (start mode limits method).state = .Head := by cases method <;> rfl

lemma start_sound : (start mode limits method).Sound :=
  ⟨fun h => absurd start_state h, fun h => by simp [start_state] at h⟩

lemma start_waits : (host p).run (start mode limits method) [] = ([], .waiting (start mode limits method) []) := by
  have hp : (host p).step (start mode limits method) [] = some (0, none, start mode limits method) := by
    refine step_some.mpr ?_
    rw [receiveInner, start_state]
    simp only [receiveHead, block_nil]
  rw [Stepper.run_idle hp (by simp [host, progressed, wantsStep, start_state])]
  rfl

lemma read_whole {pieces : List Bytes} (h : ¬ Torn p (start mode limits method) pieces) :
    Stepper.seen Event.content ((start mode limits method).read p pieces) =
      Stepper.seen Event.content ((host p).run (start mode limits method) pieces.flatten) := by
  have ha := Stepper.feedAll_flatten (host_splits p) start_sound start_waits h
  rwa [Stepper.feed, nil_append] at ha

lemma read_bodies {d : Decoder} (pieces : List Bytes) : ∀ event ∈ (d.read p pieces).1, event ≠ .Body [] := by
  refine Stepper.feedAll_events (M := host p) (P := fun event => event ≠ .Body []) ?_ (.waiting d []) pieces
  rintro d x n event _ h rfl
  exact receiveInner_body (step_some.mp h) rfl

lemma torn_fails {pieces : List Bytes} (h : Torn p (start mode limits method) pieces) :
    ((start mode limits method).read p pieces).2.outcome = none :=
  Stepper.torn_fails (host_splits p) start_sound start_waits h

/-- Splits that tear no line are read the same way. One that does fails, so it is read as a split that does not fail
just when it tears none. -/
theorem fragmentation_invariant (p : Parser) (mode : Mode) (limits : Limits) (method : Option String)
    {pieces pieces' : List Bytes} (hstream : pieces.flatten = pieces'.flatten) :
    let d := start mode limits method
    let same := Event.merge (d.read p pieces).1 = Event.merge (d.read p pieces').1 ∧
      (d.read p pieces).2.outcome = (d.read p pieces').2.outcome
    (¬ Torn p d pieces → ¬ Torn p d pieces' → same) ∧
      ((d.read p pieces).2.outcome ≠ none → (same ↔ ¬ Torn p d pieces')) := by
  intro d same
  have hs : ¬ Torn p d pieces → ¬ Torn p d pieces' → same := by
    intro ht ht'
    have he := (read_whole ht).trans ((congrArg _ (congrArg _ hstream)).trans (read_whole ht').symm)
    obtain ⟨hv, ho⟩ := Prod.mk.inj he
    refine ⟨?_, ho⟩
    rw [← Event.join_content (read_bodies pieces), ← Event.join_content (read_bodies pieces'), hv]
  refine ⟨hs, fun ho => ⟨fun he ht' => ho (he.2.trans (torn_fails ht')), hs fun ht => ho (torn_fails ht)⟩⟩

def hello : Bytes := ascii "HTTP/1.1 200 OK\r\ncontent-length: 5\r\n\r\nhello"

theorem fragmentation_invariant_hello :
    let d := start .Response .default (some "GET")
    let pieces := [hello.take 16, (hello.drop 16).take 24, hello.drop 40]
    Event.merge (d.read .plain pieces).1 = Event.merge (d.read .plain [hello]).1 ∧
      (d.read .plain pieces).2.outcome = (d.read .plain [hello]).2.outcome :=
  (fragmentation_invariant .plain .Response .default (some "GET") (by decide +kernel)).1
    (fun h => absurd (torn_fails h) (by decide +kernel)) (fun h => absurd (torn_fails h) (by decide +kernel))

def zeros : Bytes := ascii "HTTP/1.1 200 OK\r\ntransfer-encoding: chunked\r\n\r\n000000000000000000000000000\r\n\r\n"

theorem cut_line_end_fails :
    let d := start .Response ⟨128, 32768, 27⟩ (some "GET")
    let whole := d.read .plain [zeros]
    let cut := d.read .plain [zeros.take 75, zeros.drop 75]
    [zeros.take 75, zeros.drop 75].flatten = zeros ∧
      (whole.2.outcome.map fun r => (r.1.state, r.2)) = some (.Done, []) ∧ whole.1.getLast? = some .End ∧
      cut.2.outcome = none := by
  decide +kernel

end Decoder

end Turnloop.Http1
